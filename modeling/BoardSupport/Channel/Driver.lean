import BoardSupport.Channel.Layout
import BoardSupport.Register.Block

/-!
Moving units through a queue channel, and its interrupts.

The hardware drops what is written to a full queue and has nothing to give from an empty one,
so every access to a data register comes after a look at the queue's length.
-/

namespace BoardSupport

/-- A receive threshold in `[1, capacity]`; a request outside uses the capacity. -/
def clampRx (threshold capacity : Word) : Word :=
  if 0#32 < threshold ∧ threshold ≤ capacity then threshold else capacity

/-- A transmit threshold in `[0, capacity)`; a request outside uses zero. -/
def clampTx (threshold capacity : Word) : Word :=
  if threshold < capacity then threshold else 0#32

structure Channel (σ : Type) where
  regs : Registers σ
  layout : Layout

def Link.channel {σ : Type} (p : Platform σ) (link : Link) : Channel σ :=
  ⟨⟨p, link.base⟩, link.layout⟩

namespace Channel

variable {σ : Type}

def path : String := "bsp_core::platform::fifo"

def txCapacity (c : Channel σ) : Proc σ Word := c.regs.read (c.layout.tx + QueueRegister.capacity)

def txLength (c : Channel σ) : Proc σ Word := c.regs.read (c.layout.tx + QueueRegister.length)

def rxCapacity (c : Channel σ) : Proc σ Word := c.regs.read (c.layout.rx + QueueRegister.capacity)

def rxLength (c : Channel σ) : Proc σ Word := c.regs.read (c.layout.rx + QueueRegister.length)

def clearTx (c : Channel σ) : Proc σ Unit := c.regs.write (c.layout.tx + QueueRegister.clear) 1#32

def clearRx (c : Channel σ) : Proc σ Unit := c.regs.write (c.layout.rx + QueueRegister.clear) 1#32

/-- One unit to the transmit data register, without a look at the queue. -/
def writeUnit (c : Channel σ) (w : Width) (unit : Word) : Proc σ Unit :=
  c.regs.write (c.layout.tx + QueueRegister.data) (w.cut unit)

/-- One unit from the receive data register, without a look at the queue. -/
def readUnit (c : Channel σ) (w : Width) : Proc σ Word := do
  return w.cut (← c.regs.read (c.layout.rx + QueueRegister.data))

/-- Wait until the transmit queue differs in length from the capacity, then enqueue. -/
def sendEach (c : Channel σ) (w : Width) (capacity : Word) : List Word → Proc σ Unit
  | [] => pure ()
  | unit :: rest => do
    c.regs.platform.await do return (← c.txLength) != capacity
    c.writeUnit w unit
    c.sendEach w capacity rest

/-- Enqueue the units in order, waiting for space. -/
def send (c : Channel σ) (w : Width) (units : List Word) : Proc σ Unit := do
  let capacity ← c.txCapacity
  c.sendEach w capacity units

/-- Dequeue units in order of arrival, waiting for each. -/
def recv (c : Channel σ) (w : Width) : Nat → Proc σ (List Word)
  | 0 => pure []
  | n + 1 => do
    c.regs.platform.await do return (← c.rxLength) != 0#32
    let unit ← c.readUnit w
    let rest ← c.recv w n
    return unit :: rest

/-- Enqueue the unit if there is space. -/
def trySend (c : Channel σ) (w : Width) (unit : Word) : Proc σ Bool := do
  let length ← c.txLength
  let capacity ← c.txCapacity
  if length < capacity then
    c.writeUnit w unit
    return true
  else
    return false

/-- Dequeue a unit if there is one. -/
def tryRecv (c : Channel σ) (w : Width) : Proc σ (Option Word) := do
  let length ← c.rxLength
  if 0#32 < length then
    return some (← c.readUnit w)
  else
    return none

def setEnable (c : Channel σ) (f : Field) (enabled : Bool) : Proc σ Unit :=
  c.regs.modify c.layout.enable fun old => do
    let new := f.putBool enabled old
    c.regs.platform.trace path 295
      (c.regs.name ++ ": ie 0x" ++ Text.hex old.toNat ++ " -> 0x" ++ Text.hex new.toNat)
    return new

/-- The transmit interrupt on or off. The threshold is written only when turning it on, and
before the enable. -/
def setTxIrq (c : Channel σ) (enabled : Bool) (threshold : Word) : Proc σ Unit := do
  if enabled then
    let effective := clampTx threshold (← c.txCapacity)
    c.regs.platform.debug path 265
      (c.regs.name ++ ": tx irq threshold " ++ Text.decimal effective.toNat ++ " (requested " ++
        Text.decimal threshold.toNat ++ ")")
    c.regs.write c.layout.txThreshold effective
  c.setEnable Irq.transmit enabled

/-- The receive interrupt on or off, as for the transmit interrupt. -/
def setRxIrq (c : Channel σ) (enabled : Bool) (threshold : Word) : Proc σ Unit := do
  if enabled then
    let effective := clampRx threshold (← c.rxCapacity)
    c.regs.platform.debug path 282
      (c.regs.name ++ ": rx irq threshold " ++ Text.decimal effective.toNat ++ " (requested " ++
        Text.decimal threshold.toNat ++ ")")
    c.regs.write c.layout.rxThreshold effective
  c.setEnable Irq.receive enabled

def enabledIrqs (c : Channel σ) : Proc σ Word := c.regs.read c.layout.enable

def pendingIrqs (c : Channel σ) : Proc σ Word := c.regs.read c.layout.pending

end Channel

end BoardSupport
