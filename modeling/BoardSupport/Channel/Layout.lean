import BoardSupport.MemoryMap
import BoardSupport.Register.Field
import BoardSupport.Interrupt.Source

/-!
The queue channels of the board and where their registers are.

A channel has a transmit queue and a receive queue. A queue has four registers: its capacity,
its length, a control that empties it, and a data register.
-/

namespace BoardSupport

/-! Offsets in the registers of one queue. -/

namespace QueueRegister

def capacity : Nat := 0x0
def length : Nat := 0x4
def clear : Nat := 0x8
def data : Nat := 0xc

end QueueRegister

/-- Offsets of a channel's registers in its block. -/
structure Layout where
  tx : Nat
  rx : Nat
  /-- Interrupt enables. -/
  enable : Nat
  /-- Interrupt conditions. -/
  pending : Nat
  txThreshold : Nat
  rxThreshold : Nat
  deriving DecidableEq

namespace Layout

/-- The queues follow the one configuration register. -/
def uart : Layout := ⟨0x04, 0x14, 0x24, 0x28, 0x2c, 0x30⟩

/-- The queues follow four control registers. -/
def spi : Layout := ⟨0x10, 0x20, 0x30, 0x34, 0x38, 0x3c⟩

def text (l : Layout) : String :=
  Text.named "Layout"
    [("txq", Text.decimal l.tx), ("rxq", Text.decimal l.rx), ("ie", Text.decimal l.enable),
      ("ip", Text.decimal l.pending), ("tx_threshold", Text.decimal l.txThreshold),
      ("rx_threshold", Text.decimal l.rxThreshold)]

end Layout

/-- A controller with a queue channel. -/
inductive Link where
  | uart
  | spi0
  | spi1
  | i2c
  deriving DecidableEq

namespace Link

def all : List Link := [.uart, .spi0, .spi1, .i2c]

def base : Link → Nat
  | .uart => MemoryMap.uart
  | .spi0 => MemoryMap.spi0
  | .spi1 => MemoryMap.spi1
  | .i2c => MemoryMap.i2c

def layout : Link → Layout
  | .uart => .uart
  | _ => .spi

def source : Link → Nat
  | .uart => Source.uart
  | .spi0 => Source.spi0
  | .spi1 => Source.spi1
  | .i2c => Source.i2c

end Link

/-! The interrupt enables and conditions of a channel. -/

namespace Irq

/-- The transmit queue is at or below its threshold. -/
def transmit : Field := .bit "transmit" 0

/-- The receive queue is at or above its threshold. -/
def receive : Field := .bit "receive" 1

def format : Format := ⟨"IrqFlags", [transmit, receive]⟩

end Irq

end BoardSupport
