import BoardSupport.Word
import BoardSupport.Text

/-!
Why a trap was taken. The top bit of a cause tells interrupts from exceptions of the
instruction itself; the rest is a code.
-/

namespace BoardSupport.Trap

/-- The kinds of interrupt that the core tells apart. -/
inductive Class where
  | software
  | timer
  | external
  deriving DecidableEq

namespace Class

def name : Class → String
  | .software => "Software"
  | .timer => "Timer"
  | .external => "External"

/-- The code of the class, which is also its bit in the core's enables. -/
def code : Class → Nat
  | .software => 3
  | .timer => 7
  | .external => 11

def ofCode? : Nat → Option Class
  | 3 => some .software
  | 7 => some .timer
  | 11 => some .external
  | _ => none

@[simp] theorem ofCode?_code (c : Class) : ofCode? c.code = some c := by cases c <;> rfl

end Class

structure Cause where
  raw : Word
  deriving DecidableEq

namespace Cause

def isInterrupt (c : Cause) : Bool := c.raw.msb

def code (c : Cause) : Nat := (c.raw.setWidth 31).toNat

/-- The class of an interrupt with a known code. -/
def class? (c : Cause) : Option Class := if c.isInterrupt then Class.ofCode? c.code else none

def exceptionName : Nat → String
  | 0 => "Instruction address misaligned"
  | 1 => "Instruction access fault"
  | 2 => "Illegal instruction"
  | 3 => "Breakpoint"
  | 4 => "Load address misaligned"
  | 5 => "Load access fault"
  | 6 => "Store/AMO address misaligned"
  | 7 => "Store/AMO access fault"
  | 8 => "Environment call from U-mode"
  | 9 => "Environment call from S-mode"
  | 11 => "Environment call from M-mode"
  | 12 => "Instruction page fault"
  | 13 => "Load page fault"
  | 15 => "Store/AMO page fault"
  | _ => "?"

def text (c : Cause) : String :=
  if c.isInterrupt then
    "interrupt " ++ Text.decimal c.code ++ "=[" ++
      ((c.class?.map Class.name).getD "Unknown") ++ "]"
  else "exception " ++ Text.decimal c.code ++ "=[" ++ exceptionName c.code ++ "]"

end Cause

end BoardSupport.Trap
