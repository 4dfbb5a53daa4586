import HomeBasic.Slot.Store

/-!
# Slots at the other end of a link

A request is `L` and a slot number, or `S`, a slot number and a block. It is
answered by an acknowledgement, with the block where one was asked for, or by a
refusal. The client sends requests over a wire and reads the answers from it.
-/

namespace HomeBasic

/-- A byte link, from one of its ends. -/
class Wire (W : Type) where
  send : List Code → W → W
  /-- Takes the bytes that have come in, up to a number. -/
  receive : Nat → W → List Code × W

namespace Link

/-- The answer that grants a request. -/
def granted : Code := 0x06

/-- The answer that refuses a request. -/
def refused : Code := 0x15

/-- The letter that asks for a block. -/
def loadLetter : Code := 0x4C

/-- The letter that brings a block. -/
def saveLetter : Code := 0x53

/-- The request for a block. -/
def loadFrame (slot : Nat) : List Code :=
  [loadLetter, UInt8.ofNat slot]

/-- The request that brings a block. -/
def saveFrame (slot : Nat) (block : List Code) : List Code :=
  saveLetter :: UInt8.ofNat slot :: block

end Link

/-- Slots at the other end of a wire. -/
structure LinkSlots (W : Type) where
  wire : W
  count : Nat
  blockSize : Nat

namespace LinkSlots

variable {W : Type} [Wire W]

/-- Takes exactly so many bytes from the wire; a shorter answer is used up. -/
def receive (count : Nat) (link : LinkSlots W) : Except SlotFault (List Code) × LinkSlots W :=
  let (bytes, wire) := Wire.receive count link.wire
  (if bytes.length = count then .ok bytes else .error .shortRead, { link with wire })

/-- Sends a request; yields whether it was granted. -/
def request (frame : List Code) (link : LinkSlots W) : Except SlotFault Bool × LinkSlots W :=
  match receive 1 { link with wire := Wire.send frame link.wire } with
  | (.ok answer, link) =>
      if answer = [Link.granted] then (.ok true, link)
      else if answer = [Link.refused] then (.ok false, link)
      else (.error .unexpectedReply, link)
  | (.error fault, link) => (.error fault, link)

/-- Asks for a block. -/
def read (slot : Nat) (link : LinkSlots W) : Except SlotFault (List Code) × LinkSlots W :=
  match request (Link.loadFrame slot) link with
  | (.ok true, link) => receive link.blockSize link
  | (.ok false, link) => (.error (.empty slot), link)
  | (.error fault, link) => (.error fault, link)

/-- Brings a block, which must have the right size. -/
def persist (slot : Nat) (block : List Code) (link : LinkSlots W) :
    Except SlotFault Unit × LinkSlots W :=
  if block.length ≠ link.blockSize then
    (.error .corrupt, link)
  else
    match request (Link.saveFrame slot block) link with
    | (.ok true, link) => (.ok (), link)
    | (.ok false, link) => (.error .saveRefused, link)
    | (.error fault, link) => (.error fault, link)

instance : SlotStore (LinkSlots W) where
  slotCount link := link.count
  read := read
  persist := persist

end LinkSlots

/-- A wire whose answers are known beforehand, and which keeps what is sent. -/
structure ScriptedWire where
  answers : List Code
  sent : List Code
  deriving DecidableEq, Repr

instance : Wire ScriptedWire where
  send bytes wire := { wire with sent := wire.sent ++ bytes }
  receive count wire :=
    (wire.answers.take count, { wire with answers := wire.answers.drop count })

end HomeBasic
