import BoardSupport.Bench.Script
import BoardSupport.Log.Logger
import BoardSupport.Peripheral.Console

/-!
A bench session with a logger alone. Operations may be run while a record is half written and
while the sink accepts a chunk.
-/

namespace BoardSupport.Bench

/-- A part of a record's message. -/
inductive MessagePart (ω : Type) where
  | text (s : String)
  | ops (ops : List ω)

inductive LogOp where
  | log (l : Log.Level) (path : Option String) (line : Option Nat) (stamp : Log.Stamp)
    (message : List (MessagePart LogOp))
  | flush
  | enabled (l : Log.Level)
  | filter

structure LogSession where
  ring : Log.Ring
  filter : Log.Filter
  /-- The board whose console is the sink, or none for a sink that shows its chunks. -/
  board : Option Board := none
  /-- Operations to run at the next chunks that are accepted. -/
  onAccept : List (List LogOp) := []
  events : Array Event := #[]

namespace LogSession

def seen : Cell LogSession (Array Event) := ⟨events, fun a s => { s with events := a }⟩

def ringCell : Cell LogSession Log.Ring := ⟨ring, fun r s => { s with ring := r }⟩

/-- The platform of the console: stores go to the board and are seen. -/
def platform : Platform LogSession where
  load := fun address w => do
    let s ← get
    match (s.board.getD .new).load address w with
    | .ok (v, b) =>
      set { s with board := some b }
      emit seen (.load w address v)
      return v
    | .error f => Proc.fault f
  store := fun address w v => do
    modify fun s => { s with board := some ((s.board.getD .new).store address w v) }
    emit seen (.store w address v)
  log := fun _ => pure ()
  patience := fun _ => 0

/-- The next operations for an accepted chunk. -/
def nextOnAccept : Proc LogSession (List LogOp) :=
  modifyGet fun s => (s.onAccept.headD [], { s with onAccept := s.onAccept.tail })

/-- The sink. -/
def accept (perform : LogOp → Proc LogSession Reply) (chunk : List UInt8) :
    Proc LogSession Unit := do
  if (← get).board.isSome then
    Console.writeBytes platform chunk
  else
    emit seen (.accepted chunk)
    runNested seen perform (← nextOnAccept)

def logger (perform : LogOp → Proc LogSession Reply) (filter : Log.Filter) (stamp : Log.Stamp) :
    Log.Logger LogSession where
  ring := ringCell
  filter := filter
  stamp := return stamp
  accept := accept perform

def piece (perform : LogOp → Proc LogSession Reply) :
    MessagePart LogOp → Log.Piece LogSession
  | .text s => .text s
  | .ops ops => .act (runNested seen perform ops)

def filterName : Log.Filter → String
  | none => "Off"
  | some .error => "Error"
  | some .warn => "Warn"
  | some .info => "Info"
  | some .debug => "Debug"
  | some .trace => "Trace"

def performWith (perform : LogOp → Proc LogSession Reply) : LogOp → Proc LogSession Reply
  | .log l path line stamp message => do
    (logger perform (← get).filter stamp).log ⟨l, path, line, message.map (piece perform)⟩
    return .none
  | .flush => do
    (logger perform (← get).filter {}).flush
    return .none
  | .enabled l => do return .bool ((logger perform (← get).filter {}).enabled l)
  | .filter => do return .text (filterName (← get).filter)

end LogSession

/-- Run the steps of a session until one halts. -/
def LogSession.run (s : LogSession) (steps : List LogOp) : List Outcome :=
  runSteps (fun s => { s with events := #[] }) (·.events.toList)
    (performNested LogSession.performWith nestingLimit) steps s

end BoardSupport.Bench
