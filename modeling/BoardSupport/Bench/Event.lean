import BoardSupport.Bench.Reply

/-!
What is seen of a run on a bench, and its text.
-/

namespace BoardSupport.Bench

/-- What is seen of a run, in the order in which it happens. -/
inductive Event where
  | load (w : Width) (address : Nat) (v : Word)
  /-- A store with the value as it was given. -/
  | store (w : Width) (address : Nat) (v : Word)
  | log (l : Log.Level) (text : String)
  /-- A scripted handler of a source was called. -/
  | sourceHandler (id : Nat)
  /-- A scripted handler of a class was called. -/
  | classHandler (c : Trap.Class)
  /-- An enable of the flag core was written. -/
  | enable (what : String) (on : Bool)
  /-- A chunk that the log sink accepted. -/
  | accepted (chunk : List UInt8)
  /-- A line of the console is complete. -/
  | line (text : String)
  | trapTaken (cause : Nat)
  | trapLeft (address : Nat)
  /-- A bit of the hart was set or cleared by the program. -/
  | hartBit (name : String) (on : Bool)
  /-- A nested operation is done. -/
  | nested (r : Reply)

/-- Two hexadecimal digits for each byte. -/
def hexBytes (bytes : List UInt8) : String :=
  String.join (bytes.map fun b =>
    let s := Text.hex b.toNat
    if s.length < 2 then "0" ++ s else s)

def levelLetter : Log.Level → String
  | .error => "E"
  | .warn => "W"
  | .info => "I"
  | .debug => "D"
  | .trace => "T"

/-- The text of an event, but for the reply of a nested operation. -/
def Event.text : Event → Reply ⊕ String
  | .load w a v =>
    .inr ("R" ++ Text.decimal w.bytes ++ ":" ++ Text.hex a ++ "=" ++ Text.hex v.toNat)
  | .store w a v =>
    .inr ("W" ++ Text.decimal w.bytes ++ ":" ++ Text.hex a ++ "=" ++ Text.hex v.toNat)
  | .log l s => .inr (levelLetter l ++ "|" ++ s)
  | .sourceHandler id => .inr ("H:" ++ Text.decimal id)
  | .classHandler c => .inr ("V:" ++ c.name)
  | .enable what on => .inr ("C:" ++ what ++ "=" ++ Text.bool on)
  | .accepted chunk => .inr ("A:" ++ hexBytes chunk)
  | .line s => .inr ("L:" ++ s)
  | .trapTaken cause => .inr ("T:" ++ Text.hex cause)
  | .trapLeft address => .inr ("t:" ++ Text.hex address)
  | .hartBit name on => .inr ((if on then "S:" else "K:") ++ name)
  | .nested r => .inl r

/-- Let an event be seen. -/
def emit {σ : Type} (events : Cell σ (Array Event)) (e : Event) : Proc σ Unit :=
  events.update (·.push e)

end BoardSupport.Bench
