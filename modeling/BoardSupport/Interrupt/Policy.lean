import BoardSupport.Interrupt.Controller

/-!
The policy for external interrupts: claim, serve and complete until nothing is pending.

A table gives each source at most one handler. What a handler is, is up to the user of the
table, who also says how one is run.
-/

namespace BoardSupport

/-- Why a handler was not registered. -/
inductive RegisterError where
  | outOfRange (id : Nat)
  | alreadyRegistered (id : Nat)
  deriving DecidableEq

namespace RegisterError

def message : RegisterError → String
  | .outOfRange id => "interrupt source " ++ Text.decimal id ++ " is out of range"
  | .alreadyRegistered id => "interrupt source " ++ Text.decimal id ++ " already has a handler"

def text : RegisterError → String
  | .outOfRange id => Text.named "OutOfRange" [("id", Text.decimal id)]
  | .alreadyRegistered id => Text.named "AlreadyRegistered" [("id", Text.decimal id)]

end RegisterError

/-- The handlers of the sources. -/
structure SourceTable (η : Type) where
  entries : Vector (Option η) Source.count

namespace SourceTable

variable {η σ : Type}

def empty : SourceTable η := ⟨Vector.replicate _ none⟩

def get? (t : SourceTable η) (id : Word) : Option η := (t.entries[id.toNat]?).join

def register (t : SourceTable η) (id : Word) (h : η) : Except RegisterError (SourceTable η) :=
  if id.toNat < Source.count then
    match t.get? id with
    | some _ => .error (.alreadyRegistered id.toNat)
    | none => .ok ⟨t.entries.setIfInBounds id.toNat (some h)⟩
  else .error (.outOfRange id.toNat)

def path : String := "bsp_core::exceptions::interrupt::handler"

/-- Serve a claimed source and complete it. A source without a handler is completed too, so
that the controller can present others. -/
def serveClaim (p : Platform σ) (table : Cell σ (SourceTable η)) (serve : η → Word → Proc σ Unit)
    (id : Word) : Proc σ Unit := do
  p.trace path 80 ("handling interrupt " ++ Text.decimal id.toNat)
  match (← table.read).get? id with
  | some h => serve h id
  | none => p.warn path 84 ("unexpected external interrupt " ++ Text.decimal id.toNat)
  p.trace path 87 ("finished interrupt " ++ Text.decimal id.toNat)
  Controller.complete p id

/-- Claim and serve until no source is presented. The result is the number of claims. -/
def process (p : Platform σ) (table : Cell σ (SourceTable η)) (serve : η → Word → Proc σ Unit) :
    Proc σ Nat :=
  p.iterate (fun claims => do
    match ← Controller.claim p with
    | none => return .inr claims
    | some id =>
      serveClaim p table serve id
      return .inl (claims + 1)) 0

end SourceTable

end BoardSupport
