import BoardSupport.Platform

/-!
A block of registers at a base address.

Addresses have 64 bits. An offset that leads beyond them is a fault before any access is made.
-/

namespace BoardSupport

/-- One more than the highest address. -/
def addressLimit : Nat := UInt64.size

structure Registers (σ : Type) where
  platform : Platform σ
  base : Nat

namespace Registers

variable {σ : Type}

/-- The address of an offset. The fault is that of a build with debug assertions, which checks the
addition, on a machine with addresses of 64 bits: without them the address wraps around, and with
addresses of 32 bits offsets are out of reach that are not so here. -/
def address (r : Registers σ) (offset : Nat) : Proc σ Nat :=
  if r.base + offset < addressLimit then pure (r.base + offset) else Proc.fault .addOverflow

def read (r : Registers σ) (offset : Nat) : Proc σ Word := do
  r.platform.load (← r.address offset) .word

def write (r : Registers σ) (offset : Nat) (v : Word) : Proc σ Unit := do
  r.platform.store (← r.address offset) .word v

def writeByte (r : Registers σ) (offset : Nat) (v : UInt8) : Proc σ Unit := do
  r.platform.store (← r.address offset) .byte (v.toBitVec.setWidth 32)

/-- A load, then the new value, then a store. The new value may be logged on the way. -/
def modify (r : Registers σ) (offset : Nat) (f : Word → Proc σ Word) : Proc σ Unit := do
  let v ← r.read offset
  r.write offset (← f v)

/-- The name of the block in log records. -/
def name (r : Registers σ) : String := "RegisterBlock@0x" ++ Text.hex r.base

end Registers

end BoardSupport
