import BoardSupport.Board.Queues
import BoardSupport.Board.Arbiter
import BoardSupport.Platform

/-!
The board: its four channels, the interrupt controller, the console, and plain memory for every
other address.
-/

namespace BoardSupport

structure Board where
  uart : Queues := {}
  spi0 : Queues := {}
  spi1 : Queues := {}
  i2c : Queues := {}
  arbiter : Arbiter := {}
  /-- Characters written to the console. -/
  console : Array UInt8 := #[]
  /-- Words written to the scratch register. -/
  scratchWords : List Word := []
  memory : Nat → Word := fun _ => 0#32

namespace Board

/-- A board fresh out of reset. -/
def new : Board := {}

def queues (b : Board) : Link → Queues
  | .uart => b.uart
  | .spi0 => b.spi0
  | .spi1 => b.spi1
  | .i2c => b.i2c

def setQueues (b : Board) (q : Queues) : Link → Board
  | .uart => { b with uart := q }
  | .spi0 => { b with spi0 := q }
  | .spi1 => { b with spi1 := q }
  | .i2c => { b with i2c := q }

def poke (b : Board) (address : Nat) (v : Word) : Board :=
  { b with memory := fun a => if a = address then v else b.memory a }

/-- Whether a source asks for service: by a request, or by the condition of its channel. -/
def sourcePending (b : Board) (id : Nat) : Bool :=
  b.arbiter.isRaised id || Link.all.any fun link =>
    link.source == id && (b.queues link).pending != 0#32

/-- The source that the controller presents to the core. -/
def present? (b : Board) : Option Nat := b.arbiter.present? b.sourcePending

def interruptAsserted (b : Board) : Bool := b.present?.isSome

/-- What an address belongs to, with the offset there. -/
inductive Place where
  | system (offset : Nat)
  | channel (link : Link) (offset : Nat)
  | memory

def inBlock (base address : Nat) : Bool :=
  decide (base ≤ address) && decide (address < base + MemoryMap.blockSize)

def place (address : Nat) : Place :=
  if inBlock MemoryMap.system address then .system (address - MemoryMap.system)
  else
    match Link.all.find? fun link => inBlock link.base address with
    | some link => .channel link (address - link.base)
    | none => .memory

/-- One load. It takes a source at the claim register and a unit at a receive data register. -/
def load (b : Board) (address : Nat) (w : Width) : Except Fault (Word × Board) :=
  match place address with
  | .system offset =>
    if offset = SystemRegister.claim then
      let (id, arbiter) := b.arbiter.claim b.sourcePending
      .ok (w.cut (BitVec.ofNat 32 id), { b with arbiter })
    else
      .ok (w.cut ((b.arbiter.read? b.sourcePending offset).getD (b.memory address)), b)
  | .channel link offset =>
    if offset = link.layout.rx + QueueRegister.data then
      match (b.queues link).take? with
      | some (unit, q) => .ok (w.cut unit, b.setQueues q link)
      | none => .error (.emptyQueueRead address)
    else
      .ok (w.cut (((b.queues link).read? link.layout offset).getD (b.memory address)), b)
  | .memory => .ok (w.cut (b.memory address), b)

/-- A store to the scratch register: a byte is a character of the console. -/
def scratch (b : Board) (w : Width) (v : Word) : Board :=
  match w with
  | .byte => { b with console := b.console.push (UInt8.ofNat v.toNat) }
  | _ => { b with scratchWords := b.scratchWords ++ [v] }

/-- One store of the low bits of a value. -/
def store (b : Board) (address : Nat) (w : Width) (value : Word) : Board :=
  let v := w.cut value
  match place address with
  | .system offset =>
    match b.arbiter.write? offset v with
    | some arbiter => { b with arbiter }
    | none =>
      if offset = SystemRegister.scratch then b.scratch w v else b.poke address v
  | .channel link offset =>
    match (b.queues link).write? link.layout offset v with
    | some q => b.setQueues q link
    | none => b.poke address v
  | .memory => b.poke address v

def setWire (b : Board) (link : Link) (wire : Wire) : Board :=
  b.setQueues { b.queues link with wire } link

/-- The peer puts a unit on the line. The result says whether it found a place. -/
def peerSend (b : Board) (link : Link) (unit : Word) : Bool × Board :=
  (decide ((b.queues link).rx.length < Queues.capacity),
    b.setQueues ((b.queues link).arrive unit) link)

/-- The peer takes up to `n` units. The result is how many there were. -/
def peerDrain (b : Board) (link : Link) (n : Nat) : Nat × Board :=
  (min n (b.queues link).tx.length, b.setQueues ((b.queues link).drain n) link)

/-- Keep a request of a source until it is claimed. -/
def raise (b : Board) (id : Nat) : Except Fault Board :=
  (b.arbiter.raise id).map fun arbiter => { b with arbiter }

/-- The board alone, with nothing else on the machine. Records are not kept, and a wait ends
after the given number of rounds. -/
def platform (patience : Nat) : Platform Board where
  load := fun address w b =>
    match b.load address w with
    | .ok (v, b') => .ok v b'
    | .error f => .error (.fault f) b
  store := fun address w v b => .ok () (b.store address w v)
  log := fun _ => pure ()
  patience := fun _ => patience

end Board

end BoardSupport
