import BoardSupport.MemoryMap
import BoardSupport.Interrupt.Source

/-!
The external interrupt controller as the hardware keeps it.

Of the sources that are pending, enabled, not claimed and above the threshold, the controller
presents the one with the highest priority, and of several such the one with the lowest number.
-/

namespace BoardSupport

/-- A step of the claim protocol. -/
inductive ClaimEvent where
  | claim (id : Nat)
  | complete (id : Nat)
  deriving DecidableEq

def ClaimEvent.text : ClaimEvent → String
  | .claim id => "Claim(" ++ Text.decimal id ++ ")"
  | .complete id => "Complete(" ++ Text.decimal id ++ ")"

structure Arbiter where
  priority : Vector Word Source.count := Vector.replicate _ 0#32
  trigger : Vector Word Source.count := Vector.replicate _ 0#32
  /-- One bit for each source, 32 to a word. -/
  enable : Vector Word 2 := Vector.replicate _ 0#32
  threshold : Word := 0#32
  /-- Requests that wait to be claimed. -/
  raised : BitVec 64 := 0#64
  /-- Sources that are claimed and not completed. -/
  claimed : BitVec 64 := 0#64
  /-- The claim protocol so far, in order. -/
  events : List ClaimEvent := []
  deriving DecidableEq

namespace Arbiter

def priorityOf (a : Arbiter) (id : Nat) : Word := (a.priority[id]?).getD 0#32

def isEnabled (a : Arbiter) (id : Nat) : Bool := ((a.enable[id / 32]?).getD 0#32).getLsbD (id % 32)

def isRaised (a : Arbiter) (id : Nat) : Bool := a.raised.getLsbD id

def isClaimed (a : Arbiter) (id : Nat) : Bool := a.claimed.getLsbD id

/-- Whether the source can be presented, given which sources are pending. -/
def qualifies (a : Arbiter) (pending : Nat → Bool) (id : Nat) : Bool :=
  a.isEnabled id && !a.isClaimed id && decide (a.threshold < a.priorityOf id) && pending id

/-- The better of the best source so far and the next one. -/
def better (a : Arbiter) (pending : Nat → Bool) (best : Option Nat) (id : Nat) : Option Nat :=
  if a.qualifies pending id then
    match best with
    | none => some id
    | some j => if a.priorityOf j < a.priorityOf id then some id else some j
  else best

/-- The source presented now. -/
def present? (a : Arbiter) (pending : Nat → Bool) : Option Nat :=
  (List.range Source.count).foldl (a.better pending) none

/-- Take the presented source; `Source.count` says that there is none. -/
def claim (a : Arbiter) (pending : Nat → Bool) : Nat × Arbiter :=
  match a.present? pending with
  | some id =>
    (id, { a with
      claimed := a.claimed ||| (1#64 <<< id)
      raised := a.raised &&& ~~~(1#64 <<< id)
      events := a.events ++ [.claim id] })
  | none => (Source.count, a)

def complete (a : Arbiter) (id : Nat) : Arbiter :=
  { a with
    claimed := if id < Source.count then a.claimed &&& ~~~(1#64 <<< id) else a.claimed
    events := a.events ++ [.complete id] }

/-- Keep a request until it is claimed. -/
def raise (a : Arbiter) (id : Nat) : Except Fault Arbiter :=
  if id < Source.count then .ok { a with raised := a.raised ||| (1#64 <<< id) }
  else .error .shiftOverflow

def triggerOf (a : Arbiter) (id : Nat) : Except Fault Word :=
  match a.trigger[id]? with
  | some v => .ok v
  | none => .error (.outOfBounds Source.count id)

/-- The pending bits of 32 sources. -/
def pendingWord (pending : Nat → Bool) (word : Nat) : Word :=
  (List.range 32).foldl
    (fun acc bit => if pending (word * 32 + bit) then acc ||| (1#32 <<< bit) else acc) 0#32

/-- A register other than the claim register, by its offset. -/
def read? (a : Arbiter) (pending : Nat → Bool) (offset : Nat) : Option Word :=
  if offset = SystemRegister.threshold then some a.threshold
  else if SystemRegister.pending ≤ offset ∧ offset < SystemRegister.pending + 8 then
    some (pendingWord pending ((offset - SystemRegister.pending) / 4))
  else if SystemRegister.enable ≤ offset ∧ offset < SystemRegister.enable + 8 then
    a.enable[(offset - SystemRegister.enable) / 4]?
  else if SystemRegister.priority ≤ offset ∧ offset < SystemRegister.trigger then
    a.priority[(offset - SystemRegister.priority) / 4]?
  else if SystemRegister.trigger ≤ offset ∧
      offset < SystemRegister.trigger + 4 * Source.count then
    a.trigger[(offset - SystemRegister.trigger) / 4]?
  else none

/-- The effect of a write, or none where the controller has no register to write. -/
def write? (a : Arbiter) (offset : Nat) (v : Word) : Option Arbiter :=
  if offset = SystemRegister.claim then some (a.complete v.toNat)
  else if offset = SystemRegister.threshold then some { a with threshold := v }
  else if SystemRegister.enable ≤ offset ∧ offset < SystemRegister.enable + 8 then
    some { a with
      enable := a.enable.setIfInBounds ((offset - SystemRegister.enable) / 4) v }
  else if SystemRegister.priority ≤ offset ∧ offset < SystemRegister.trigger then
    some { a with
      priority := a.priority.setIfInBounds ((offset - SystemRegister.priority) / 4) v }
  else if SystemRegister.trigger ≤ offset ∧
      offset < SystemRegister.trigger + 4 * Source.count then
    some { a with
      trigger := a.trigger.setIfInBounds ((offset - SystemRegister.trigger) / 4) v }
  else none

end Arbiter

end BoardSupport
