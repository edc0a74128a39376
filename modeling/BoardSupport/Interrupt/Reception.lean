import BoardSupport.Channel.Driver

/-!
Reception driven by interrupts: whenever a channel says that its receive threshold is reached,
its receive queue is moved into a buffer of fixed capacity.

The buffer is appended to from interrupts and read by the program. An append writes its units
above the published count and publishes them all at once at its end. What arrives at a full
buffer is counted and lost.
-/

namespace BoardSupport

structure ReceiveBuffer where
  /-- Width of the units. -/
  width : Width
  /-- As many places as the capacity. -/
  slots : List Word
  /-- How many places from the front are published. -/
  count : Nat := 0
  /-- How many units found no place. The count is kept in 64 bits and taken not to wrap around. -/
  dropped : Nat := 0
  /-- Whether the one writing end has been taken. -/
  hasWriter : Bool := false

namespace ReceiveBuffer

def new (width : Width) (capacity : Nat) : ReceiveBuffer :=
  { width, slots := List.replicate capacity 0#32 }

def capacity (b : ReceiveBuffer) : Nat := b.slots.length

/-- The units received so far in order of arrival. -/
def received (b : ReceiveBuffer) : List Word := b.slots.take b.count

def write (b : ReceiveBuffer) (i : Nat) (unit : Word) : ReceiveBuffer :=
  { b with slots := b.slots.set i (b.width.cut unit) }

/-- Take the writing end, if it has not been taken. -/
def takeWriter (b : ReceiveBuffer) : Option ReceiveBuffer :=
  if b.hasWriter then none else some { b with hasWriter := true }

/-- Forget what was received and give back the writing end. -/
def clear (b : ReceiveBuffer) : ReceiveBuffer :=
  { b with count := 0, dropped := 0, hasWriter := false }

def path : String := "bsp_core::exceptions::interrupt::receive"

variable {σ : Type}

/-- Take the units from number `i` up, `n` of them, and put those for which there is a place
from `start + stored` up. The result is how many are stored then. -/
def fill (buffer : Cell σ ReceiveBuffer) (next : Nat → Proc σ Word) (start : Nat) :
    (n i stored : Nat) → Proc σ Nat
  | 0, _, stored => pure stored
  | n + 1, i, stored => do
    let unit ← next i
    if start + stored < (← buffer.read).capacity then
      buffer.update (·.write (start + stored) unit)
      fill buffer next start n (i + 1) (stored + 1)
    else
      fill buffer next start n (i + 1) stored

/-- Append up to `n` units and publish them. All `n` units are taken from `next`, also when the
buffer is full. -/
def append (p : Platform σ) (buffer : Cell σ ReceiveBuffer) (n : Nat) (next : Nat → Proc σ Word) :
    Proc σ Nat := do
  let start := (← buffer.read).count
  let stored ← fill buffer next start n 0 0
  if stored < n then
    buffer.update fun b => { b with dropped := b.dropped + (n - stored) }
    p.warn path 126
      ("receive buffer full, dropped " ++ Text.decimal (n - stored) ++ " of " ++ Text.decimal n ++
        " units")
  buffer.update fun b => { b with count := start + stored }
  return stored

end ReceiveBuffer

/-- The handler of a channel's source that moves its receive queue into a buffer. -/
structure Reception (σ : Type) where
  channel : Channel σ
  buffer : Cell σ ReceiveBuffer
  /-- How many times the queue was drained, a count that is taken not to wrap around either. -/
  completions : Cell σ Nat

/-- Drain the channel: its length is read once, and so many units are taken. -/
def Reception.handle {σ : Type} (r : Reception σ) (id : Word) : Proc σ Unit := do
  let p := r.channel.regs.platform
  if Irq.receive.isSet (← r.channel.pendingIrqs) then
    let waiting := (← r.channel.rxLength).toNat
    let width := (← r.buffer.read).width
    let stored ← ReceiveBuffer.append p r.buffer waiting
      fun _ => r.channel.readUnit width
    r.completions.update (· + 1)
    let n ← r.completions.read
    let b ← r.buffer.read
    p.trace ReceiveBuffer.path 177
      ("interrupt " ++ Text.decimal id.toNat ++ ": drained " ++ Text.decimal waiting ++
        " units, stored " ++ Text.decimal stored ++ ", " ++ Text.decimal b.count ++
        " total after " ++ Text.decimal n ++ " completions")
  else
    p.warn ReceiveBuffer.path 171
      ("interrupt " ++ Text.decimal id.toNat ++ " claimed without a receive condition")

end BoardSupport
