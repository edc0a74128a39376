import BoardSupport.Bench.Command
import BoardSupport.Bench.Script
import BoardSupport.Board.ScriptedCells
import BoardSupport.Interrupt.Reception

/-!
A bench session: drivers, interrupt policies and dispatchers at work on one bus.

A session performs operations in order. Operations are also run when a chosen access is reached
and from scripted handlers; these nested operations are as free as the others. An operation at
the top may make a limited number of accesses, those of nested operations included.
-/

namespace BoardSupport.Bench

/-- What a new dispatcher does for a class. -/
inductive ClassEntry (ω : Type) where
  | ignore
  /-- Run the current policy. -/
  | policy
  | clearSoftware
  | script (s : Script ω)

inductive Op where
  | command (c : Command)
  | board (c : BoardCommand)
  | newBuffer (w : Width) (capacity : Nat)
  | takeWriter (buffer : Nat)
  | dropWriter (buffer : Nat)
  | append (buffer : Nat) (units : List Word)
  | bufferState (buffer : Nat)
  | clearBuffer (buffer : Nat)
  | newReception (buffer : Nat) (link : Link)
  | handleReception (reception : Nat) (id : Word)
  | receptionState (reception : Nat)
  | newPolicy
  | registerReception (id : Word) (reception : Nat)
  | registerScript (id : Word) (s : Script Op)
  | process
  | claim
  | newDispatcher (external timer software : ClassEntry Op)
  | dispatch (cause : Word) (address : Nat)
  /-- Dispatch an external interrupt if the board presents one. -/
  | poll
  | phase
  | setGlobal (enabled : Bool)
  | setClass (c : Trap.Class) (enabled : Bool)
  | coreState
  | withMasked (c : Trap.Class) (ops : List Op)
  | without (ops : List Op)

/-- The bus of a session. -/
inductive Medium where
  | cells (c : ScriptedCells)
  | board (b : Board)

/-- A receive buffer and who may write to it. -/
structure HeldBuffer where
  buffer : ReceiveBuffer := .new .byte 0
  /-- The session holds the writing end. -/
  held : Bool := false
  /-- A reception holds the writing end. -/
  lent : Bool := false

structure HeldReception where
  link : Link := .uart
  buffer : Nat := 0
  completions : Nat := 0

/-- The handler of a source. -/
inductive SourceRoutine where
  | reception (i : Nat)
  | script (i : Nat)

/-- The handler of a class. -/
inductive ClassRoutine where
  | ignore
  | policy (i : Nat)
  | clearSoftware
  | script (i : Nat)

structure HeldDispatcher where
  table : Trap.Table ClassRoutine := ⟨.ignore, .ignore, .ignore⟩
  phase : Trap.Phase := .idle

/-- How many accesses a step may make. -/
def accessLimit : Nat := 2000

structure Session where
  medium : Medium
  hooks : List (Hook Op) := []
  filter : Log.Filter := none
  /-- Accesses made so far. -/
  accesses : Nat := 0
  /-- Accesses that the step may still make. -/
  left : Nat := accessLimit
  /-- What was seen of the step. -/
  events : Array Event := #[]
  buffers : Array HeldBuffer := #[]
  receptions : Array HeldReception := #[]
  /-- The last one is current. -/
  policies : Array (SourceTable SourceRoutine) := #[.empty]
  /-- The last one is current. -/
  dispatchers : Array HeldDispatcher := #[{}]
  /-- Scripts of handlers, with the calls for which they still run. -/
  scripts : Array (Script Op) := #[]
  flags : CoreFlags := {}

namespace Session

def seen : Cell Session (Array Event) := ⟨events, fun a s => { s with events := a }⟩

def allBuffers : Cell Session (Array HeldBuffer) := ⟨buffers, fun a s => { s with buffers := a }⟩

def held (i : Nat) : Cell Session HeldBuffer := allBuffers.entry i {}

def buffer (i : Nat) : Cell Session ReceiveBuffer where
  get := fun s => ((held i).get s).buffer
  put := fun b s => (held i).put { (held i).get s with buffer := b } s

def allReceptions : Cell Session (Array HeldReception) :=
  ⟨receptions, fun a s => { s with receptions := a }⟩

def reception (i : Nat) : Cell Session HeldReception := allReceptions.entry i {}

def completions (i : Nat) : Cell Session Nat where
  get := fun s => ((reception i).get s).completions
  put := fun n s => (reception i).put { (reception i).get s with completions := n } s

def allPolicies : Cell Session (Array (SourceTable SourceRoutine)) :=
  ⟨policies, fun a s => { s with policies := a }⟩

def policy (i : Nat) : Cell Session (SourceTable SourceRoutine) := allPolicies.entry i .empty

def allDispatchers : Cell Session (Array HeldDispatcher) :=
  ⟨dispatchers, fun a s => { s with dispatchers := a }⟩

def dispatcher (i : Nat) : Cell Session HeldDispatcher := allDispatchers.entry i {}

def phase (i : Nat) : Cell Session Trap.Phase where
  get := fun s => ((dispatcher i).get s).phase
  put := fun p s => (dispatcher i).put { (dispatcher i).get s with phase := p } s

def allScripts : Cell Session (Array (Script Op)) := ⟨scripts, fun a s => { s with scripts := a }⟩

/-- Number of the current policy. -/
def currentPolicy (s : Session) : Nat := s.policies.size - 1

/-- Number of the current dispatcher. -/
def currentDispatcher (s : Session) : Nat := s.dispatchers.size - 1

/-! ### The platform of a session -/

/-- Count an access, and run what is to be run before it. -/
def beginAccess (perform : Op → Proc Session Reply) : Proc Session Unit := do
  let s ← get
  if s.left = 0 then Proc.hang
  let number := s.accesses + 1
  let (due, rest) := Hook.due s.hooks number
  set { s with accesses := number, left := s.left - 1, hooks := rest }
  runNested seen perform due

def load (address : Nat) (w : Width) : Proc Session Word := do
  let s ← get
  match s.medium with
  | .cells c =>
    let (v, c) := c.load address w
    set { s with medium := .cells c }
    emit seen (.load w address v)
    return v
  | .board b =>
    match b.load address w with
    | .ok (v, b) =>
      set { s with medium := .board b }
      emit seen (.load w address v)
      return v
    | .error f => Proc.fault f

def store (address : Nat) (w : Width) (v : Word) : Proc Session Unit := do
  modify fun s =>
    { s with
      medium := match s.medium with
        | .cells c => .cells (c.store address w v)
        | .board b => .board (b.store address w v) }
  emit seen (.store w address v)

def log (r : Log.Record) : Proc Session Unit := do
  let s ← get
  if s.filter.admits r.level then emit seen (.log r.level r.text)

/-- The drivers' view of a session in which nested operations run as given. -/
def platform (perform : Op → Proc Session Reply) : Platform Session :=
  Platform.before { load, store, log, patience := left } (beginAccess perform)

/-- The core of a session: four flags that nothing else looks at. -/
def core : Core Session where
  setGlobal := fun enabled => do
    emit seen (.enable "global" enabled)
    modifyGet fun s => (s.flags.global, { s with flags := { s.flags with global := enabled } })
  setClass := fun c enabled => do
    emit seen (.enable c.name enabled)
    modifyGet fun s => (s.flags.get c, { s with flags := s.flags.put enabled c })

/-- A command to the board, if the session is on one. -/
def onBoard (x : Proc Board Reply) : Proc Session Reply := fun s =>
  match s.medium with
  | .cells _ => .ok .none s
  | .board b =>
    match x b with
    | .ok r b => .ok r { s with medium := .board b }
    | .error h b => .error h { s with medium := .board b }

def interruptAsserted (s : Session) : Bool :=
  match s.medium with
  | .cells _ => false
  | .board b => b.interruptAsserted

end Session

end BoardSupport.Bench
