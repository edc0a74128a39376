import BoardSupport.Peripheral.Config
import BoardSupport.Channel.Driver

/-!
The two SPI controllers: framing and clocking of their units, chip selects, and their driver.
-/

namespace BoardSupport.Spi

structure Config where
  /-- The clock idles high. -/
  cpol : Bool := false
  /-- Data is sampled on the second edge. -/
  cpha : Bool := false
  endian : Endian := .little
  /-- Bits of a unit, 1 to 32. -/
  unitLength : BitVec 8 := 8#8
  /-- From chip select to the first clock edge, in half periods. -/
  clockDelay : BitVec 8 := 1#8
  /-- The unit clock is the main clock divided by twice one more than this. -/
  clockDivider : BitVec 16 := 1#16
  deriving DecidableEq

def Config.text (c : Config) : String :=
  Text.named "SpiConfig"
    [("cpol", Text.bool c.cpol), ("cpha", Text.bool c.cpha), ("endian", c.endian.name),
      ("unit_len", Text.decimal c.unitLength.toNat),
      ("sck_delay", Text.decimal c.clockDelay.toNat),
      ("clock_divider", Text.decimal c.clockDivider.toNat)]

/-! The configuration register. -/

namespace Control

def cpol : Field := .bit "cpol" 0
def cpha : Field := .bit "cpha" 1
def bigEndian : Field := .bit "big_endian" 2
def unitLengthMinus1 : Field := ⟨"unit_len_minus_1", 3, 5, false⟩
def clockDelay : Field := ⟨"sck_delay", 8, 8, false⟩
def clockDivider : Field := ⟨"clock_divider", 16, 16, false⟩

def format : Format :=
  ⟨"GlobalConfig", [cpol, cpha, bigEndian, unitLengthMinus1, clockDelay, clockDivider]⟩

end Control

/-- The divider for a unit clock of at most the given rate. -/
def clockDivider (clock rate : Word) : Except ConfigError (BitVec 16) :=
  if rate = 0#32 then .error .zeroRate
  else
    let halfPeriods := clock.toNat / min (2 * rate.toNat) (UInt32.size - 1)
    if halfPeriods = 0 then .error (.dividerOutOfRange rate.toNat 0)
    else if halfPeriods - 1 < UInt16.size then .ok (BitVec.ofNat 16 (halfPeriods - 1))
    else .error (.dividerOutOfRange rate.toNat (halfPeriods - 1))

namespace Config

def encode (c : Config) : Except ConfigError Word :=
  if 1#8 ≤ c.unitLength ∧ c.unitLength ≤ 32#8 then
    let w := Control.cpol.putBool c.cpol 0#32
    let w := Control.cpha.putBool c.cpha w
    let w := Control.bigEndian.putBool (c.endian == .big) w
    let w := Control.unitLengthMinus1.put ((c.unitLength - 1#8).setWidth 32) w
    let w := Control.clockDelay.put (c.clockDelay.setWidth 32) w
    .ok (Control.clockDivider.put (c.clockDivider.setWidth 32) w)
  else .error (.unitLength c.unitLength.toNat)

def decode (w : Word) : Config where
  cpol := Control.cpol.isSet w
  cpha := Control.cpha.isSet w
  endian := .ofBig (Control.bigEndian.isSet w)
  unitLength := (Control.unitLengthMinus1.get w).setWidth 8 + 1#8
  clockDelay := (Control.clockDelay.get w).setWidth 8
  clockDivider := (Control.clockDivider.get w).setWidth 16

end Config

/-- Chip select lines rest high. -/
def selectIdle : Word := 0xf#32

def path : String := "bsp_core::platform::spi"

/-- Offsets of the control registers. -/
def controlRegister : Nat := 0x0
def receiveRegister : Nat := 0x4
def idleRegister : Nat := 0x8
def selectRegister : Nat := 0xc

variable {σ : Type}

/-- Which chip select lines are driven in a transfer; there are four. -/
def setSelect (r : Registers σ) (lines : Word) : Proc σ Unit :=
  r.write selectRegister (lines &&& 0xf#32)

/-- The level at which the chip select lines rest. -/
def setIdle (r : Registers σ) (lines : Word) : Proc σ Unit :=
  r.write idleRegister (lines &&& 0xf#32)

/-- Configure the controller, unless the configuration has no register value. Without `receive`
the units that come in during a transfer are discarded. -/
def init (r : Registers σ) (c : Config) (select : Word) (receive : Bool) :
    Proc σ (Except ConfigError Unit) :=
  match c.encode with
  | .error e => return .error e
  | .ok w => do
    r.platform.debug path 170
      (r.name ++ ": spi config " ++ c.text ++ " -> " ++ Control.format.text w ++
        ", cs_mask=0x" ++ Text.hex select.toNat ++ ", recv=" ++ Text.bool receive)
    r.write controlRegister w
    r.write idleRegister selectIdle
    setSelect r select
    r.write receiveRegister (if receive then 1#32 else 0#32)
    return .ok ()

def config (r : Registers σ) : Proc σ Config := do
  return .decode (← r.read controlRegister)

end BoardSupport.Spi
