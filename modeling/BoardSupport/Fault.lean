import BoardSupport.Text

/-!
How a run ends before its result: it breaks down, it waits for ever, or the program stops the
machine with an exit code.
-/

namespace BoardSupport

/-- A broken promise of the program or of its caller, found while running. -/
inductive Fault where
  | addOverflow
  | shiftOverflow
  | outOfBounds (length index : Nat)
  | sourceOutOfRange (id : Nat)
  | emptyQueueRead (address : Nat)
  /-- A result that has to be there is missing. -/
  | missing (what : String)
  /-- A step that has to succeed failed with a cause. -/
  | failed (what cause : String)
  deriving DecidableEq

def Fault.message : Fault → String
  | .addOverflow => "attempt to add with overflow"
  | .shiftOverflow => "attempt to shift left with overflow"
  | .outOfBounds length index =>
    "index out of bounds: the len is " ++ Text.decimal length ++ " but the index is " ++
      Text.decimal index
  | .sourceOutOfRange id => "interrupt source " ++ Text.decimal id ++ " out of range"
  | .emptyQueueRead address => "read of an empty receive queue at 0x" ++ Text.hex address
  | .missing what => what
  | .failed what cause => what ++ ": " ++ cause

inductive Halt where
  | fault (f : Fault)
  /-- A wait that nothing ends. -/
  | hang
  | exit (code : Nat)
  deriving DecidableEq

end BoardSupport
