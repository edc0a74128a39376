import BoardSupport.Word

/-!
A bus without hardware: a cell for each address, and for some addresses the values that their
next loads give.
-/

namespace BoardSupport

structure ScriptedCells where
  cells : Nat → Word := fun _ => 0#32
  /-- Values for the next loads of an address, in order. -/
  queues : List (Nat × List Word) := []

namespace ScriptedCells

/-- The first value that waits for the address, taken from the queues. -/
def next? (address : Nat) : List (Nat × List Word) → Option (Word × List (Nat × List Word))
  | [] => none
  | (a, vs) :: rest =>
    if a = address then
      match vs with
      | v :: vs => some (v, (a, vs) :: rest)
      | [] => (next? address rest).map fun r => (r.1, (a, []) :: r.2)
    else (next? address rest).map fun r => (r.1, (a, vs) :: r.2)

def load (c : ScriptedCells) (address : Nat) (w : Width) : Word × ScriptedCells :=
  match next? address c.queues with
  | some (v, queues) => (w.cut v, { c with queues })
  | none => (w.cut (c.cells address), c)

def store (c : ScriptedCells) (address : Nat) (w : Width) (v : Word) : ScriptedCells :=
  { c with cells := fun a => if a = address then w.cut v else c.cells a }

end ScriptedCells

end BoardSupport
