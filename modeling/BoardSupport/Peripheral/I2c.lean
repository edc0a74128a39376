import BoardSupport.Channel.Driver

/-!
The I2C controller. A transfer is a number of frames in the transmit queue, started on its own
and over when the controller is no longer busy.
-/

namespace BoardSupport.I2c

structure Config where
  /-- How long data is held after the falling clock edge, in main clock cycles. -/
  dataDelay : BitVec 16 := 10#16
  clockDivider : BitVec 16 := 250#16
  deriving DecidableEq

def Config.text (c : Config) : String :=
  Text.named "I2cConfig"
    [("sda_delay", Text.decimal c.dataDelay.toNat),
      ("clock_divider", Text.decimal c.clockDivider.toNat)]

/-! The configuration register. -/

namespace Control

def dataDelay : Field := ⟨"sda_delay", 0, 16, false⟩
def clockDivider : Field := ⟨"clock_divider", 16, 16, false⟩

def format : Format := ⟨"GlobalConfig", [dataDelay, clockDivider]⟩

end Control

def Config.encode (c : Config) : Word :=
  Control.clockDivider.put (c.clockDivider.setWidth 32)
    (Control.dataDelay.put (c.dataDelay.setWidth 32) 0#32)

def path : String := "bsp_core::platform::i2c"

/-- Offsets of the control registers. -/
def controlRegister : Nat := 0x0
def framesRegister : Nat := 0x4
def startRegister : Nat := 0x8
def busyRegister : Nat := 0xc

variable {σ : Type}

def registers (p : Platform σ) : Registers σ := ⟨p, MemoryMap.i2c⟩

def init (p : Platform σ) (c : Config) : Proc σ Unit := do
  p.debug path 82 ("i2c config " ++ c.text ++ " -> " ++ Control.format.text c.encode)
  (registers p).write controlRegister c.encode

def isBusy (p : Platform σ) : Proc σ Bool := do
  return (← (registers p).read busyRegister) != 0#32

/-- Start a transfer of so many frames from the transmit queue. -/
def start (p : Platform σ) (frames : Word) : Proc σ Unit := do
  p.trace path 93 ("i2c start, " ++ Text.decimal frames.toNat ++ " frames")
  (registers p).write framesRegister frames
  (registers p).write startRegister 1#32

def waitIdle (p : Platform σ) : Proc σ Unit :=
  p.await do return !(← isBusy p)

/-- Queue the frames, run the transfer and wait for its end. -/
def transfer (p : Platform σ) (frames : List Word) : Proc σ Unit := do
  (Link.i2c.channel p).send .byte frames
  start p (BitVec.ofNat 32 frames.length)
  waitIdle p

end BoardSupport.I2c
