import BoardSupport.Channel.Layout

/-!
The two queues of a channel as the hardware keeps them, and the line they are connected to.
-/

namespace BoardSupport

/-- What becomes of units written to the transmit queue. -/
inductive Wire where
  /-- They wait in the queue until the peer takes them. -/
  | hold
  /-- They leave at once and come back into the receive queue. -/
  | loopback
  /-- They leave at once. -/
  | sink
  deriving DecidableEq

structure Queues where
  tx : List Word := []
  rx : List Word := []
  /-- Interrupt enables. -/
  enable : Word := 0#32
  txThreshold : Word := 0#32
  rxThreshold : Word := 0#32
  wire : Wire := .hold
  /-- All that left on the line, in order. -/
  transmitted : List Word := []
  /-- Units written to a full transmit queue. This count and the next are kept in 64 bits and taken
  not to overflow. -/
  droppedTx : Nat := 0
  /-- Units that arrived at a full receive queue. -/
  droppedRx : Nat := 0
  deriving DecidableEq

namespace Queues

/-- How many units a queue holds. -/
def capacity : Nat := 8

/-- A unit arrives. It is lost if the queue is full. -/
def arrive (q : Queues) (unit : Word) : Queues :=
  if q.rx.length < capacity then { q with rx := q.rx ++ [unit] }
  else { q with droppedRx := q.droppedRx + 1 }

/-- A unit is written to the transmit data register. It is lost if the queue is full. -/
def transmit (q : Queues) (unit : Word) : Queues :=
  if q.tx.length = capacity then { q with droppedTx := q.droppedTx + 1 }
  else
    match q.wire with
    | .hold => { q with tx := q.tx ++ [unit] }
    | .sink => { q with transmitted := q.transmitted ++ [unit] }
    | .loopback => { q with transmitted := q.transmitted ++ [unit] }.arrive unit

/-- The peer takes up to `n` units. -/
def drain (q : Queues) (n : Nat) : Queues :=
  { q with tx := q.tx.drop n, transmitted := q.transmitted ++ q.tx.take n }

def transmitPending (q : Queues) : Bool :=
  Irq.transmit.isSet q.enable && decide (q.tx.length ≤ q.txThreshold.toNat)

def receivePending (q : Queues) : Bool :=
  Irq.receive.isSet q.enable && !q.rx.isEmpty && decide (q.rxThreshold.toNat ≤ q.rx.length)

/-- The conditions that hold and are enabled. -/
def pending (q : Queues) : Word :=
  Irq.receive.putBool q.receivePending (Irq.transmit.putBool q.transmitPending 0#32)

/-- Reading the receive data register takes the first unit. -/
def take? (q : Queues) : Option (Word × Queues) :=
  match q.rx with
  | [] => none
  | unit :: rest => some (unit, { q with rx := rest })

/-- A register that can be read without effect, by its offset. -/
def read? (l : Layout) (q : Queues) (offset : Nat) : Option Word :=
  if offset = l.tx + QueueRegister.capacity then some (BitVec.ofNat 32 capacity)
  else if offset = l.tx + QueueRegister.length then some (BitVec.ofNat 32 q.tx.length)
  else if offset = l.rx + QueueRegister.capacity then some (BitVec.ofNat 32 capacity)
  else if offset = l.rx + QueueRegister.length then some (BitVec.ofNat 32 q.rx.length)
  else if offset = l.enable then some q.enable
  else if offset = l.pending then some q.pending
  else if offset = l.txThreshold then some q.txThreshold
  else if offset = l.rxThreshold then some q.rxThreshold
  else none

/-- The effect of a write, or none where there is no register to write. -/
def write? (l : Layout) (q : Queues) (offset : Nat) (v : Word) : Option Queues :=
  if offset = l.tx + QueueRegister.clear then some { q with tx := [] }
  else if offset = l.tx + QueueRegister.data then some (q.transmit v)
  else if offset = l.rx + QueueRegister.clear then some { q with rx := [] }
  else if offset = l.enable then some { q with enable := v }
  else if offset = l.txThreshold then some { q with txThreshold := v }
  else if offset = l.rxThreshold then some { q with rxThreshold := v }
  else none

end Queues

end BoardSupport
