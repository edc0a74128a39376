import BoardSupport.Trap.Cause
import BoardSupport.Proc

/-!
The interrupt enables of the core, and running with interrupts masked.
-/

namespace BoardSupport

/-- The enables of a core. Both operations give the previous state. -/
structure Core (σ : Type) where
  setGlobal : Bool → Proc σ Bool
  setClass : Trap.Class → Bool → Proc σ Bool

namespace Core

variable {σ α : Type}

/-- Run with one class masked, and unmask it after if it was not masked before. -/
def withMasked (c : Core σ) (k : Trap.Class) (x : Proc σ α) : Proc σ α := do
  let enabled ← c.setClass k false
  let a ← x
  if enabled then discard (c.setClass k true)
  return a

/-- Run with every interrupt masked, and unmask them after if they were not masked before. -/
def without (c : Core σ) (x : Proc σ α) : Proc σ α := do
  let enabled ← c.setGlobal false
  let a ← x
  if enabled then discard (c.setGlobal true)
  return a

end Core

/-- A core with flags alone. -/
structure CoreFlags where
  global : Bool := false
  software : Bool := false
  timer : Bool := false
  external : Bool := false
  deriving DecidableEq

namespace CoreFlags

def get (f : CoreFlags) : Trap.Class → Bool
  | .software => f.software
  | .timer => f.timer
  | .external => f.external

def put (f : CoreFlags) (enabled : Bool) : Trap.Class → CoreFlags
  | .software => { f with software := enabled }
  | .timer => { f with timer := enabled }
  | .external => { f with external := enabled }

end CoreFlags

end BoardSupport
