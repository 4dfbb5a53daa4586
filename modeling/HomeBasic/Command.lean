import HomeBasic.Value

/-!
# Commands

What a statement asks of the machine, once all of its operands are worked out.
-/

namespace HomeBasic

/-- A place that a value can be put. -/
inductive Target
  | number (name : Name)
  | element (name : Name) (index : Int)
  | text (name : Name)
  deriving DecidableEq, Repr, Inhabited

namespace Target

/-- The place takes a text. -/
def isText : Target → Bool
  | text _ => true
  | _ => false

end Target

/-- What a statement asks of the machine. -/
inductive Command
  | list (start : Option Int)
  | run (start : Option Int)
  | new
  | clear
  | cont
  | save (slot : Int)
  | load (slot : Int)
  | assign (target : Target) (value : Value)
  | input (target : Target)
  | goto (line : Int)
  | gosub (line : Int)
  | return
  | loop (name : Name) (start limit : Int)
  | next (name : Name)
  | stop
  | dimension (name : Name) (maxIndex : Int)
  | read (target : Target)
  | restore (line : Option Int)
  | poke (address value : Int)
  | beep (duration pitch : Int)
  | wait (duration : Int)
  | cls
  deriving DecidableEq, Repr, Inhabited

end HomeBasic
