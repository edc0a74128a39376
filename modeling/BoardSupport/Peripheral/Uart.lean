import BoardSupport.Peripheral.Config
import BoardSupport.Channel.Driver

/-!
The UART: framing and clocking of its line, and its driver.
-/

namespace BoardSupport.Uart

inductive Parity where
  | none
  | space
  | mark
  | odd
  | even
  deriving DecidableEq

inductive StopBits where
  | one
  | two
  deriving DecidableEq

def Parity.name : Parity → String
  | .none => "None"
  | .space => "Space"
  | .mark => "Mark"
  | .odd => "Odd"
  | .even => "Even"

def StopBits.name : StopBits → String
  | .one => "One"
  | .two => "Two"

structure Config where
  txEnable : Bool := true
  rxEnable : Bool := true
  /-- Bits per second. -/
  baudRate : Word := 115200#32
  /-- Data bits of a frame, 5 to 8. -/
  dataBits : BitVec 8 := 8#8
  stopBits : StopBits := .one
  parity : Parity := .none
  endian : Endian := .little
  deriving DecidableEq

def Config.text (c : Config) : String :=
  Text.named "UartConfig"
    [("tx_enable", Text.bool c.txEnable), ("rx_enable", Text.bool c.rxEnable),
      ("baud_rate", Text.decimal c.baudRate.toNat), ("data_bits", Text.decimal c.dataBits.toNat),
      ("stop_bits", c.stopBits.name), ("parity", c.parity.name), ("endian", c.endian.name)]

/-! The configuration register. -/

namespace Control

def txEnable : Field := .bit "tx_enable" 0
def rxEnable : Field := .bit "rx_enable" 1
def dataBitsMinus5 : Field := ⟨"data_bits_minus_5", 2, 2, false⟩
def twoStopBits : Field := .bit "two_stop_bits" 4
def bigEndian : Field := .bit "big_endian" 5
def parityEnable : Field := .bit "parity_enable" 7
def parityType : Field := ⟨"parity_type", 8, 2, false⟩
def clockDivider : Field := ⟨"clock_divider", 16, 16, false⟩

def format : Format :=
  ⟨"GlobalConfig", [txEnable, rxEnable, dataBitsMinus5, twoStopBits, bigEndian, parityEnable,
    parityType, clockDivider]⟩

/-- The parity fields of the register. Without parity the kind is left as it is. -/
def putParity (p : Parity) (w : Word) : Word :=
  match p with
  | .none => parityEnable.putBool false w
  | .space => parityEnable.putBool true (parityType.put 0#32 w)
  | .mark => parityEnable.putBool true (parityType.put 1#32 w)
  | .odd => parityEnable.putBool true (parityType.put 2#32 w)
  | .even => parityEnable.putBool true (parityType.put 3#32 w)

def getParity (w : Word) : Parity :=
  if parityEnable.isSet w then
    match (parityType.get w).toNat with
    | 0 => .space
    | 1 => .mark
    | 2 => .odd
    | _ => .even
  else .none

end Control

/-- The divider of the clock for a baud rate. The quotient is rounded up only when the
remainder is more than half the baud rate. -/
def baudDivider (clock baud : Word) : Except ConfigError (BitVec 16) :=
  if baud = 0#32 then .error .zeroRate
  else
    let up := if baud.toNat / 2 < clock.toNat % baud.toNat then 1 else 0
    let divider := clock.toNat / baud.toNat + up
    if 0 < divider ∧ divider < UInt16.size then .ok (BitVec.ofNat 16 divider)
    else .error (.dividerOutOfRange baud.toNat divider)

namespace Config

/-- Every field of the register but the divider. -/
def framing (c : Config) : Word :=
  let w := Control.txEnable.putBool c.txEnable 0#32
  let w := Control.rxEnable.putBool c.rxEnable w
  let w := Control.dataBitsMinus5.put ((c.dataBits - 5#8).setWidth 32) w
  let w := Control.twoStopBits.putBool (c.stopBits == .two) w
  let w := Control.bigEndian.putBool (c.endian == .big) w
  Control.putParity c.parity w

/-- The register value for a UART fed by the clock. -/
def encode (c : Config) (clock : Word) : Except ConfigError Word :=
  if 5#8 ≤ c.dataBits ∧ c.dataBits ≤ 8#8 then
    (baudDivider clock c.baudRate).map fun d =>
      Control.clockDivider.put (d.setWidth 32) c.framing
  else .error (.dataBits c.dataBits.toNat)

/-- The configuration in a register value. The baud rate is the nominal rate of the divider,
and zero for a divider of zero. -/
def decode (w clock : Word) : Config where
  txEnable := Control.txEnable.isSet w
  rxEnable := Control.rxEnable.isSet w
  baudRate := clock / Control.clockDivider.get w
  dataBits := (Control.dataBitsMinus5.get w).setWidth 8 + 5#8
  stopBits := if Control.twoStopBits.isSet w then .two else .one
  parity := Control.getParity w
  endian := .ofBig (Control.bigEndian.isSet w)

end Config

variable {σ : Type}

def path : String := "bsp_core::platform::uart"

def registers (p : Platform σ) : Registers σ := ⟨p, MemoryMap.uart⟩

def channel (p : Platform σ) : Channel σ := Link.uart.channel p

/-- Write the configuration, unless it has no register value. -/
def init (p : Platform σ) (c : Config) : Proc σ (Except ConfigError Unit) :=
  match c.encode mainClock with
  | .error e => return .error e
  | .ok w => do
    p.debug path 224 ("uart config " ++ c.text ++ " -> " ++ Control.format.text w)
    (registers p).write 0 w
    return .ok ()

def control (p : Platform σ) : Proc σ Word := (registers p).read 0

def config (p : Platform σ) : Proc σ Config := do
  return .decode (← control p) mainClock

/-- Change the parity alone. -/
def setParity (p : Platform σ) (parity : Parity) : Proc σ Unit :=
  (registers p).modify 0 fun old => do
    let new := Control.putParity parity old
    p.debug path 244 ("uart parity " ++ parity.name ++ " -> " ++ Control.format.text new)
    return new

end BoardSupport.Uart
