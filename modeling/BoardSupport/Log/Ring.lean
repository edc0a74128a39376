/-!
The ring of slots in which log records wait.

Positions count up for ever, in 64 bits; a position belongs to the slot at its remainder by the
number of slots. A record reserves the position at the head whenever it needs another slot, and
the drain empties the slot at the tail. A record that finds the ring full keeps what it has
written so far, loses the rest and is counted as lost.
-/

namespace BoardSupport.Log

/-- How many bytes a slot holds. -/
def slotLength : Nat := 120

inductive Slot where
  | empty
  /-- Taken by a record that is not yet done with it. -/
  | writing
  /-- Filled, and ready for the drain. -/
  | ready (bytes : List UInt8)
  deriving DecidableEq

structure Ring where
  slots : List Slot
  /-- The next position to reserve. -/
  head : BitVec 64 := 0#64
  /-- The next position to drain. -/
  tail : BitVec 64 := 0#64
  /-- Records that lost text since the last notice. The count is kept in 64 bits like the
  positions, but is taken not to wrap around. -/
  lost : Nat := 0
  /-- A drain is going on. -/
  draining : Bool := false
  deriving DecidableEq

/-- A record on its way into the ring. -/
structure Writer where
  /-- The slot being filled and what is in it. -/
  slot : Option (Nat × List UInt8) := none
  /-- The ring was full; the rest of the record is lost. -/
  truncated : Bool := false
  deriving DecidableEq

namespace Ring

def new (size : Nat) : Ring := { slots := List.replicate size .empty }

def size (r : Ring) : Nat := r.slots.length

/-- The slot of a position. -/
def index (r : Ring) (position : BitVec 64) : Nat := position.toNat % r.size

def slotAt (r : Ring) (i : Nat) : Slot := (r.slots[i]?).getD .writing

def setSlot (r : Ring) (i : Nat) (s : Slot) : Ring := { r with slots := r.slots.set i s }

/-- Reserve the position at the head and take its slot. -/
def reserve (r : Ring) : Option Nat × Ring :=
  if r.size ≤ (r.head - r.tail).toNat then (none, r)
  else
    let i := r.index r.head
    let r := { r with head := r.head + 1#64 }
    if r.slotAt i = .empty then (some i, r.setSlot i .writing) else (none, r)

/-- Hand the slot that is being filled to the drain. -/
def publish (r : Ring) (w : Writer) : Ring :=
  match w.slot with
  | some (i, bytes) => r.setSlot i (.ready bytes)
  | none => r

/-- Another slot for the record; the one before is published first. -/
def advance (r : Ring) (w : Writer) : Ring × Writer :=
  match (r.publish w).reserve with
  | (some i, r) => (r, { w with slot := some (i, []) })
  | (none, r) => ({ r with lost := r.lost + 1 }, { slot := none, truncated := true })

def hasRoom (w : Writer) : Bool :=
  match w.slot with
  | some (_, bytes) => decide (bytes.length < slotLength)
  | none => false

/-- One byte of a record. -/
def push (rw : Ring × Writer) (b : UInt8) : Ring × Writer :=
  if rw.2.truncated then rw
  else
    let (r, w) := if hasRoom rw.2 then rw else rw.1.advance rw.2
    (r, { w with slot := w.slot.map fun s => (s.1, s.2 ++ [b]) })

def write (rw : Ring × Writer) (bytes : List UInt8) : Ring × Writer := bytes.foldl push rw

@[simp] theorem write_nil (rw : Ring × Writer) : write rw [] = rw := rfl

/-- Only the text of a record counts, not the pieces in which it is written. -/
theorem write_append (rw : Ring × Writer) (u v : List UInt8) :
    write rw (u ++ v) = write (write rw u) v := by
  simp [write, List.foldl_append]

/-- Forget how many records lost text. -/
def forgetLost (r : Ring) : Ring := { r with lost := 0 }

/-- The bytes at the tail, if their slot is filled. -/
def front? (r : Ring) : Option (List UInt8) :=
  if r.tail = r.head then none
  else
    match r.slotAt (r.index r.tail) with
    | .ready bytes => some bytes
    | _ => none

/-- Free the slot at the tail. -/
def pop (r : Ring) : Ring :=
  { r.setSlot (r.index r.tail) .empty with tail := r.tail + 1#64 }

end Ring

end BoardSupport.Log
