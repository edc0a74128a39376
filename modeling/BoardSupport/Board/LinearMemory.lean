import BoardSupport.Platform

/-!
Plain memory of bytes from address zero up, read and written in little-endian order.
-/

namespace BoardSupport

structure LinearMemory where
  bytes : List UInt8

namespace LinearMemory

/-- The bytes of a number, the least significant first. -/
def littleEndian (v : Nat) : Nat → List UInt8
  | 0 => []
  | n + 1 => UInt8.ofNat v :: littleEndian (v / 256) n

/-- The number of bytes, the least significant first. -/
def number : List UInt8 → Nat
  | [] => 0
  | b :: rest => b.toNat + 256 * number rest

def ofWords (words : List Word) : LinearMemory :=
  ⟨words.flatMap fun w => littleEndian w.toNat 4⟩

def wordAt (m : LinearMemory) (address : Nat) : Word :=
  BitVec.ofNat 32 (number ((m.bytes.drop address).take 4))

def words (m : LinearMemory) : List Word :=
  (List.range (m.bytes.length / 4)).map fun i => m.wordAt (4 * i)

def load (m : LinearMemory) (address : Nat) (w : Width) : Word :=
  BitVec.ofNat 32 (number ((m.bytes.drop address).take w.bytes))

def store (m : LinearMemory) (address : Nat) (w : Width) (v : Word) : LinearMemory :=
  ⟨m.bytes.take address ++ littleEndian v.toNat w.bytes ++ m.bytes.drop (address + w.bytes)⟩

def platform : Platform LinearMemory where
  load := fun address w m => .ok (m.load address w) m
  store := fun address w v m => .ok () (m.store address w v)
  log := fun _ => pure ()
  patience := fun _ => 0

end LinearMemory

end BoardSupport
