import BoardSupport.MemoryMap
import BoardSupport.Register.Block

/-!
General purpose pins. Every register has one bit for each of the 32 pins.
-/

namespace BoardSupport.Gpio

def pinCount : Nat := 32

inductive Direction where
  | disabled
  | input
  | output
  deriving DecidableEq

inductive Pull where
  | none
  | up
  | down
  deriving DecidableEq

def Pull.name : Pull → String
  | .none => "None"
  | .up => "Up"
  | .down => "Down"

/-- A pin floats unless it is pulled. -/
instance : Inhabited Pull := ⟨.none⟩

def path : String := "bsp_core::platform::gpio"

/-- Offsets of the registers. -/
def pullUp : Nat := 0x00
def pullDown : Nat := 0x04
def inputValue : Nat := 0x08
def inputEnable : Nat := 0x0c
def outputValue : Nat := 0x10
def outputEnable : Nat := 0x14
def irqPending : Nat := 0x18
def irqEnable : Nat := 0x1c

variable {σ : Type}

def registers (p : Platform σ) : Registers σ := ⟨p, MemoryMap.gpio⟩

/-- The bit of a pin, or no bit for a pin that is not there. -/
def pinMask (pin : Word) : Word := if pin.toNat < pinCount then 1#32 <<< pin.toNat else 0#32

/-- The bit of a pin, with a warning for a pin that is not there. -/
def checkedMask (p : Platform σ) (pin : Word) : Proc σ Word := do
  unless pin.toNat < pinCount do
    p.warn path 62 ("gpio pin " ++ Text.decimal pin.toNat ++ " out of range")
  return pinMask pin

/-- Set or clear the pin's bit of a register. -/
def setBit (p : Platform σ) (offset : Nat) (pin : Word) (set : Bool) : Proc σ Unit :=
  (registers p).modify offset fun v => do
    let mask ← checkedMask p pin
    return if set then v ||| mask else v &&& ~~~mask

/-- Select the function of the pins. -/
def setMode (p : Platform σ) (mode : Word) : Proc σ Unit := do
  p.debug path 88 ("gpio mode 0x" ++ Text.hex mode.toNat)
  Registers.write ⟨p, MemoryMap.system⟩ SystemRegister.pinMode mode

def setDirection (p : Platform σ) (pin : Word) (d : Direction) : Proc σ Unit := do
  setBit p inputEnable pin (d == .input)
  setBit p outputEnable pin (d == .output)

def setPull (p : Platform σ) (pin : Word) (pull : Pull) : Proc σ Unit := do
  setBit p pullUp pin (pull == .up)
  setBit p pullDown pin (pull == .down)

def write (p : Platform σ) (pin : Word) (high : Bool) : Proc σ Unit :=
  setBit p outputValue pin high

def read (p : Platform σ) (pin : Word) : Proc σ Bool := do
  let v ← (registers p).read inputValue
  let mask ← checkedMask p pin
  return v &&& mask != 0#32

def readAll (p : Platform σ) : Proc σ Word := (registers p).read inputValue

def setIrq (p : Platform σ) (pin : Word) (enabled : Bool) : Proc σ Unit :=
  setBit p irqEnable pin enabled

def pending (p : Platform σ) : Proc σ Word := (registers p).read irqPending

end BoardSupport.Gpio
