import BoardSupport.MemoryMap
import BoardSupport.Interrupt.Source
import BoardSupport.Register.Block

/-!
Driver of the external interrupt controller.

Each source has a priority, a trigger mode, an enable bit and a pending bit. Reading the claim
register takes the most urgent source, and writing its number to the same register completes it.
-/

namespace BoardSupport

inductive TriggerMode where
  | level
  | edge
  deriving DecidableEq

def TriggerMode.name : TriggerMode → String
  | .level => "Level"
  | .edge => "Edge"

/-- How the controller treats a source. -/
structure SourceConfig where
  /-- The source is presented only while its priority is above the threshold. -/
  priority : Word := 0#32
  mode : TriggerMode := .level
  deriving DecidableEq

def SourceConfig.text (c : SourceConfig) : String :=
  Text.named "Config" [("priority", Text.decimal c.priority.toNat), ("mode", c.mode.name)]

namespace Controller

def path : String := "bsp_core::exceptions::interrupt::controller"

variable {σ : Type}

def registers (p : Platform σ) : Registers σ := ⟨p, MemoryMap.system⟩

/-- Offset of the word that holds the source's bit, and that bit. The range is asserted for
debugging only, and the fault is that of a build with debug assertions: without them a number out
of range gives an offset beyond the bitmap. -/
def bitOf (id : Word) : Proc σ (Nat × Word) :=
  if id.toNat < Source.count then pure (id.toNat / 32 * 4, 1#32 <<< (id.toNat % 32))
  else Proc.fault (.sourceOutOfRange id.toNat)

def setBit (p : Platform σ) (register : Nat) (id : Word) (set : Bool) : Proc σ Unit := do
  let (offset, mask) ← bitOf id
  (registers p).modify (register + offset) fun old => do
    let new := if set then old ||| mask else old &&& ~~~mask
    p.trace path 54
      ("register 0x" ++ Text.hex (register + offset) ++ " for id=" ++ Text.decimal id.toNat ++
        ": 0x" ++ Text.hex old.toNat ++ " -> 0x" ++ Text.hex new.toNat)
    return new

def getBit (p : Platform σ) (register : Nat) (id : Word) : Proc σ Bool := do
  let (offset, mask) ← bitOf id
  return (← (registers p).read (register + offset)) &&& mask != 0#32

def configure (p : Platform σ) (id : Word) (c : SourceConfig) : Proc σ Unit := do
  p.debug path 67 ("configuring interrupt " ++ Text.decimal id.toNat ++ " " ++ c.text)
  (registers p).write (SystemRegister.priority + id.toNat * 4) c.priority
  (registers p).write (SystemRegister.trigger + id.toNat * 4)
    (if c.mode = .edge then 1#32 else 0#32)

def enable (p : Platform σ) (id : Word) : Proc σ Unit := do
  p.debug path 77 ("enable interrupt " ++ Text.decimal id.toNat)
  setBit p SystemRegister.enable id true

def disable (p : Platform σ) (id : Word) : Proc σ Unit := do
  p.debug path 82 ("disable interrupt " ++ Text.decimal id.toNat)
  setBit p SystemRegister.enable id false

def isEnabled (p : Platform σ) (id : Word) : Proc σ Bool := getBit p SystemRegister.enable id

def isPending (p : Platform σ) (id : Word) : Proc σ Bool := getBit p SystemRegister.pending id

def setThreshold (p : Platform σ) (level : Word) : Proc σ Unit := do
  p.debug path 95 ("interrupt threshold " ++ Text.decimal level.toNat)
  (registers p).write SystemRegister.threshold level

/-- Take the most urgent source, if one qualifies. -/
def claim (p : Platform σ) : Proc σ (Option Word) := do
  let id ← (registers p).read SystemRegister.claim
  if id.toNat < Source.count then
    p.trace path 102 ("claim interrupt " ++ Text.decimal id.toNat)
    return some id
  else
    return none

def complete (p : Platform σ) (id : Word) : Proc σ Unit := do
  p.trace path 110 ("complete interrupt " ++ Text.decimal id.toNat)
  (registers p).write SystemRegister.claim id

end Controller

end BoardSupport
