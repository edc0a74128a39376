import BoardSupport.Word

/-!
Where the register blocks and memories of the board are, and what feeds their clocks.
-/

namespace BoardSupport

/-- Frequency of the main clock, from which every peripheral clock is divided. -/
def mainClock : Word := 100000000#32

namespace MemoryMap

/-- The system controller: timer, scratch register and interrupt controller. -/
def system : Nat := 0x08000000
def gpio : Nat := 0x70000000
def uart : Nat := 0x70001000
def i2c : Nat := 0x70002000
def spi0 : Nat := 0x70003000
def spi1 : Nat := 0x70004000
def timer : Nat := 0x70005000
def watchdog : Nat := 0x70006000
def debugModule : Nat := 0x70007000

def romStart : Nat := 0x04000000
def romLength : Nat := 8
def sramStart : Nat := 0x10000000
def sramLength : Nat := 64 * 1024
def flashStart : Nat := 0x20000000
def flashLength : Nat := 1024 * 1024

/-- Bytes that each register block takes up. -/
def blockSize : Nat := 0x1000

end MemoryMap

/-! Offsets in the system controller. -/

namespace SystemRegister

def resetVector : Nat := 0x00
def softwareInterrupt : Nat := 0x04
def timerConfig : Nat := 0x08
def timerLow : Nat := 0x0c
def timerHigh : Nat := 0x10
def compareLow : Nat := 0x14
def compareHigh : Nat := 0x18
def systemReset : Nat := 0x1c
def deviceReset : Nat := 0x20
def clockGate : Nat := 0x24
def scratch : Nat := 0x28
def pinMode : Nat := 0x2c

/-- The offsets in ascending order. -/
def all : List Nat :=
  [resetVector, softwareInterrupt, timerConfig, timerLow, timerHigh, compareLow, compareHigh,
    systemReset, deviceReset, clockGate, scratch, pinMode]

def claim : Nat := 0x038
def threshold : Nat := 0x03c
def pending : Nat := 0x040
def enable : Nat := 0x048
def priority : Nat := 0x050
def trigger : Nat := 0x150

end SystemRegister

end BoardSupport
