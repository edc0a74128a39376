import BoardSupport.Word
import BoardSupport.Proc
import BoardSupport.Log.Record

/-!
What a driver may do: access the bus, write a log record, and wait.

Every driver is written over a `Platform`, so that what else happens on the machine between two
of its accesses is up to the platform: a peer may act, an interrupt may be taken. A wait is a
loop that the platform ends with `Halt.hang` after as many fruitless rounds as its patience
allows. A platform that counts accesses gives what is left of its count as patience; each
round of a wait makes an access, so the count ends such a wait before the patience does.
-/

namespace BoardSupport

structure Platform (σ : Type) where
  load : (address : Nat) → Width → Proc σ Word
  store : (address : Nat) → Width → Word → Proc σ Unit
  log : Log.Record → Proc σ Unit
  patience : σ → Nat

namespace Platform

variable {σ α β : Type}

/-- At most `n` rounds of a loop that carries a value until it gives a result. -/
def rounds (step : β → Proc σ (β ⊕ α)) : Nat → β → Proc σ α
  | 0, _ => Proc.hang
  | n + 1, b => do
    match ← step b with
    | .inl b => rounds step n b
    | .inr a => return a

/-- A loop that carries a value until it gives a result, for as long as the patience lasts. -/
def iterate (p : Platform σ) (step : β → Proc σ (β ⊕ α)) (b : β) : Proc σ α :=
  fun s => rounds step (p.patience s + 1) b s

/-- Wait until the condition holds. -/
def await (p : Platform σ) (condition : Proc σ Bool) : Proc σ Unit :=
  p.iterate (fun _ => do return if ← condition then .inr () else .inl ()) ()

def error (p : Platform σ) (path : String) (line : Nat) (text : String) : Proc σ Unit :=
  p.log ⟨.error, ⟨path, line⟩, text⟩

def warn (p : Platform σ) (path : String) (line : Nat) (text : String) : Proc σ Unit :=
  p.log ⟨.warn, ⟨path, line⟩, text⟩

def info (p : Platform σ) (path : String) (line : Nat) (text : String) : Proc σ Unit :=
  p.log ⟨.info, ⟨path, line⟩, text⟩

def debug (p : Platform σ) (path : String) (line : Nat) (text : String) : Proc σ Unit :=
  p.log ⟨.debug, ⟨path, line⟩, text⟩

def trace (p : Platform σ) (path : String) (line : Nat) (text : String) : Proc σ Unit :=
  p.log ⟨.trace, ⟨path, line⟩, text⟩

/-- The same platform with something done before every access. -/
def before (p : Platform σ) (first : Proc σ Unit) : Platform σ :=
  { p with
    load := fun a w => do first; p.load a w
    store := fun a w v => do first; p.store a w v }

/-- The same platform with something done after every access. -/
def after (p : Platform σ) (next : Proc σ Unit) : Platform σ :=
  { p with
    load := fun a w => do let v ← p.load a w; next; return v
    store := fun a w v => do p.store a w v; next }

end Platform

end BoardSupport
