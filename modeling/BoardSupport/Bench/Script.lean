import BoardSupport.Bench.Event

/-!
Running operations on a bench.

Steps run in order until one halts. Operations are also run from within others: when an access
is reached for which they wait, and by scripted handlers. Such nesting has a limit, far beyond
what the hooks and scripts of a bench use up.
-/

namespace BoardSupport.Bench

variable {σ ω : Type}

/-- How a step ended, with what was seen of it. -/
inductive Outcome where
  | done (r : Reply) (events : List Event)
  | halted (h : Halt) (events : List Event)

/-- Run steps in order until one halts. Each starts with `prepare`. -/
def runSteps (prepare : σ → σ) (events : σ → List Event) (perform : ω → Proc σ Reply) :
    List ω → σ → List Outcome
  | [], _ => []
  | op :: rest, s =>
    match perform op (prepare s) with
    | .ok r s => .done r (events s) :: runSteps prepare events perform rest s
    | .error h s => [.halted h (events s)]

/-- How deep operations may nest. -/
def nestingLimit : Nat := 100000

/-- Perform an operation with at most so many levels of operations below it. -/
def performNested (perform : (ω → Proc σ Reply) → ω → Proc σ Reply) : Nat → ω → Proc σ Reply
  | 0, _ => Proc.hang
  | n + 1, op => perform (performNested perform n) op

/-- Run nested operations; each is seen when it is done. -/
def runNested (events : Cell σ (Array Event)) (perform : ω → Proc σ Reply) :
    List ω → Proc σ Unit
  | [] => pure ()
  | op :: rest => do
    let r ← perform op
    emit events (.nested r)
    runNested events perform rest

/-- Operations for the first so many calls of a handler. -/
structure Script (ω : Type) where
  ops : List ω := []
  times : Nat := 1

/-- Keep a script, and say where. -/
def addScript (scripts : Cell σ (Array (Script ω))) (s : Script ω) : Proc σ Nat := do
  let i := (← scripts.read).size
  scripts.update (·.push s)
  return i

/-- Run the operations of a script that has calls left. The call is used up before they run. -/
def runScript (events : Cell σ (Array Event)) (scripts : Cell σ (Array (Script ω)))
    (perform : ω → Proc σ Reply) (i : Nat) : Proc σ Unit := do
  let cell := scripts.entry i { times := 0 }
  let s ← cell.read
  if 0 < s.times then
    cell.write { s with times := s.times - 1 }
    runNested events perform s.ops

/-- Operations to run when an access or a console line is reached. -/
structure Hook (ω : Type) where
  number : Nat
  ops : List ω

/-- The operations that wait for a number, and the other hooks. -/
def Hook.due (hooks : List (Hook ω)) (number : Nat) : List ω × List (Hook ω) :=
  let (due, rest) := hooks.partition (·.number == number)
  (due.flatMap (·.ops), rest)

end BoardSupport.Bench
