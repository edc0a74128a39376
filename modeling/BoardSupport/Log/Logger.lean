import BoardSupport.Log.Record
import BoardSupport.Log.Ring
import BoardSupport.Proc

/-!
The logger: it writes records into a ring and drains the ring to a sink when no drain is going
on yet. It may be called at any point of a record and of a drain.
-/

namespace BoardSupport.Log

/-- What is known of the moment at which a record is written. -/
structure Stamp where
  hart : Nat := 0
  ticks : Nat := 0

/-- A piece of a record's text, or something that happens while the text is put together. -/
inductive Piece (σ : Type) where
  | text (s : String)
  | act (x : Proc σ Unit)

/-- A record as it is handed to the logger. -/
structure Entry (σ : Type) where
  level : Level
  path : Option String
  line : Option Nat
  message : List (Piece σ)

def Entry.ofRecord {σ : Type} (r : Record) : Entry σ :=
  ⟨r.level, some r.site.path, some r.site.line, [.text r.text]⟩

def Level.color : Level → String
  | .error => "31"
  | .warn => "33"
  | .info => "32"
  | .debug => "34"
  | .trace => "35"

/-- What stands before the message of a record, in the pieces in which it is written. -/
def heading (l : Level) (path : Option String) (line : Option Nat) (s : Stamp) : List String :=
  ["\x1b[", l.color, "m", l.name] ++ Text.padding 5 l.name ++
    ["\x1b[0m [", Text.decimal s.hart, ":"] ++ Text.padding 10 (Text.decimal s.ticks) ++
    [Text.decimal s.ticks, "] ", path.getD "unknown module", "@", Text.decimal (line.getD 0), "| "]

/-- A record from its heading to the end of its line. -/
def Entry.pieces {σ : Type} (e : Entry σ) (s : Stamp) : List (Piece σ) :=
  (heading e.level e.path e.line s).map .text ++ e.message ++ [.text "\n"]

/-- Written to the sink when records lost text. -/
def lostNotice : String := "\x1b[31mlog records lost\x1b[0m\n"

structure Logger (σ : Type) where
  ring : Cell σ Ring
  filter : Filter
  /-- Read once for each record. -/
  stamp : Proc σ Stamp
  /-- The sink. -/
  accept : List UInt8 → Proc σ Unit
  /-- What breaks in after a piece of a record. -/
  interrupt : Proc σ Unit := pure ()

namespace Logger

variable {σ : Type}

def enabled (l : Logger σ) (level : Level) : Bool := l.filter.admits level

def write (l : Logger σ) (w : Writer) (s : String) : Proc σ Writer := do
  let (r, w) := Ring.write (← l.ring.read, w) (Text.utf8 s)
  l.ring.write r
  return w

def writePieces (l : Logger σ) (w : Writer) : List (Piece σ) → Proc σ Writer
  | [] => pure w
  | .text s :: rest => do
    let w ← l.write w s
    l.interrupt
    l.writePieces w rest
  | .act x :: rest => do
    x
    l.writePieces w rest

/-- Put a record into the ring. -/
def record (l : Logger σ) (e : Entry σ) : Proc σ Unit := do
  let stamp ← l.stamp
  let w ← l.writePieces {} (e.pieces stamp)
  l.ring.update (·.publish w)

/-- Move up to `n` slots to the sink. A slot that is not filled holds back all after it. -/
def drainSlots (l : Logger σ) : Nat → Proc σ Unit
  | 0 => pure ()
  | n + 1 => do
    match (← l.ring.read).front? with
    | none => pure ()
    | some chunk =>
      l.accept chunk
      l.ring.update Ring.pop
      l.drainSlots n

/-- The notice of lost records if there are any, then up to `n` slots. -/
def drain (l : Logger σ) (n : Nat) : Proc σ Unit := do
  let lost := (← l.ring.read).lost
  l.ring.update Ring.forgetLost
  if 0 < lost then l.accept (Text.utf8 lostNotice)
  l.drainSlots n

/-- Drain with the sink held. -/
def drainLocked (l : Logger σ) (n : Nat) : Proc σ Unit := do
  l.ring.update fun r => { r with draining := true }
  l.drain n
  l.ring.update fun r => { r with draining := false }

/-- Log a record. A drain that is already going on is left to pick it up. -/
def log (l : Logger σ) (e : Entry σ) : Proc σ Unit := do
  if l.enabled e.level then
    l.record e
    let r ← l.ring.read
    unless r.draining do l.drainLocked (r.size / 3)

/-- Drain the whole ring. Within a drain this waits for ever. -/
def flush (l : Logger σ) : Proc σ Unit := do
  let r ← l.ring.read
  if r.draining then Proc.hang
  l.drainLocked r.size

end Logger

end BoardSupport.Log
