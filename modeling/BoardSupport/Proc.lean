import BoardSupport.Fault

/-!
Procedures of the machine, and the places in its state that they work on.

A procedure over a state `σ` gives a result or halts, and gives the state it reached in both
cases. A cell is a place in a larger state; a procedure over the place is one over the whole.
-/

namespace BoardSupport

abbrev Proc (σ α : Type) := EStateM Halt σ α

namespace Proc

def fault {σ α : Type} (f : Fault) : Proc σ α := throw (.fault f)

def hang {σ α : Type} : Proc σ α := throw .hang

/-- A result that is there, or the fault. -/
def ofOption {σ α : Type} (f : Fault) : Option α → Proc σ α
  | some a => pure a
  | none => fault f

/-- The procedures one after the other, with their results in order. -/
def sequence {σ α : Type} : List (Proc σ α) → Proc σ (List α)
  | [] => pure []
  | x :: xs => do
    let a ← x
    let as ← sequence xs
    return a :: as

end Proc

/-- A place of type `α` in the state `σ`. -/
structure Cell (σ α : Type) where
  get : σ → α
  put : α → σ → σ

namespace Cell

variable {σ α β : Type}

def read (c : Cell σ α) : Proc σ α := fun s => .ok (c.get s) s

def write (c : Cell σ α) (a : α) : Proc σ Unit := fun s => .ok () (c.put a s)

def update (c : Cell σ α) (f : α → α) : Proc σ Unit := fun s => .ok () (c.put (f (c.get s)) s)

/-- A procedure over the place, run in the whole state. -/
def run (c : Cell σ α) (x : Proc α β) : Proc σ β := fun s =>
  match x (c.get s) with
  | .ok b a => .ok b (c.put a s)
  | .error h a => .error h (c.put a s)

/-- The entry of an array, or the given value where the array has none. -/
def entry (c : Cell σ (Array α)) (i : Nat) (a : α) : Cell σ α where
  get := fun s => ((c.get s)[i]?).getD a
  put := fun b s => c.put ((c.get s).setIfInBounds i b) s

/-- What is put is got back, and nothing else of the state changes. -/
structure Lawful (c : Cell σ α) : Prop where
  get_put : ∀ a s, c.get (c.put a s) = a
  put_get : ∀ s, c.put (c.get s) s = s
  put_put : ∀ a b s, c.put b (c.put a s) = c.put b s

end Cell

end BoardSupport
