import BoardSupport.Bench.Session

/-!
Performing the operations of a session.
-/

namespace BoardSupport.Bench

namespace Session

variable (perform : Op → Proc Session Reply)

/-- The handler of a channel's source. -/
def receptionOf (p : Platform Session) (i : Nat) (h : HeldReception) : Reception Session where
  channel := h.link.channel p
  buffer := buffer h.buffer
  completions := completions i

/-- Run the handler of a claimed source. -/
def serveSource (p : Platform Session) : SourceRoutine → Word → Proc Session Unit
  | .reception i, id => do
    let h ← (reception i).read
    (receptionOf p i h).handle id
  | .script i, id => do
    emit seen (.sourceHandler id.toNat)
    runScript seen allScripts perform i

/-- Claim and serve until no source is presented. -/
def processPolicy (p : Platform Session) (i : Nat) : Proc Session Nat :=
  SourceTable.process p (policy i) (serveSource perform p)

/-- Run the handler of a class. -/
def serveClass (p : Platform Session) (c : Trap.Class) : ClassRoutine → Proc Session Unit
  | .ignore => pure ()
  | .policy i => discard (processPolicy perform p i)
  | .clearSoftware => SoftwareInterrupt.clear p
  | .script i => do
    emit seen (.classHandler c)
    runScript seen allScripts perform i

/-- Dispatch a trap through the current dispatcher. -/
def dispatchTrap (p : Platform Session) (cause : Word) (address : Nat) : Proc Session Reply := do
  let i := (← get).currentDispatcher
  let handle := fun c => do
    let d ← (dispatcher i).read
    serveClass perform p c (d.table.handler c)
  return .ofDispatch (← Trap.dispatch p (phase i) handle ⟨cause⟩ address)

/-- A trap handler as a new dispatcher asks for it. -/
def enterClass : ClassEntry Op → Proc Session ClassRoutine
  | .ignore => return .ignore
  | .policy => do return .policy (← get).currentPolicy
  | .clearSoftware => return .clearSoftware
  | .script s => do return .script (← addScript allScripts s)

/-- Register a handler with the current policy. -/
def register (id : Word) (h : SourceRoutine) : Proc Session (Except RegisterError Unit) := do
  let cell := policy (← get).currentPolicy
  match (← cell.read).register id h with
  | .ok t => cell.write t; return .ok ()
  | .error e => return .error e

/-- The writing end for a new reception: the one the session holds, or the buffer's own. -/
def lendWriter (i : Nat) : Proc Session Bool := do
  let h ← (held i).read
  if h.held then
    (held i).write { h with held := false, lent := true }
    return true
  else
    match h.buffer.takeWriter with
    | some b =>
      (held i).write { h with buffer := b, lent := true }
      return true
    | none => return false

/-- Perform an operation, with nested operations performed as given. -/
def performWith : Op → Proc Session Reply
  | .command c => c.perform (platform perform)
  | .board c => onBoard c.perform
  | .newBuffer w capacity => do
    let i := (← get).buffers.size
    allBuffers.update (·.push { buffer := .new w capacity })
    return .number i
  | .takeWriter i => do
    let h ← (held i).read
    match h.buffer.takeWriter with
    | some b =>
      (held i).write { h with buffer := b, held := true }
      return .bool true
    | none => return .bool false
  | .dropWriter i => do
    (held i).update fun h => { h with held := false }
    return .none
  | .append i units => do
    if (← (held i).read).held then
      let stored ← ReceiveBuffer.append (platform perform) (buffer i) units.length
        fun k => return units.getD k 0#32
      return .appended stored units.length
    else
      return .none
  | .bufferState i => do
    let b ← (buffer i).read
    return .buffer b.count b.dropped (b.received.map (·.toNat))
  | .clearBuffer i => do
    let h ← (held i).read
    if h.held || h.lent then
      return .bool false
    else
      (buffer i).update (·.clear)
      return .bool true
  | .newReception i link => do
    if ← lendWriter i then
      let n := (← get).receptions.size
      allReceptions.update (·.push { link, buffer := i })
      return .number n
    else
      return .none
  | .handleReception i id => do
    serveSource perform (platform perform) (.reception i) id
    return .none
  | .receptionState i => do
    let h ← (reception i).read
    return .reception h.completions (← (buffer h.buffer).read).count
  | .newPolicy => do
    allPolicies.update (·.push .empty)
    return .none
  | .registerReception id i => do
    match ← register id (.reception i) with
    | .ok _ => return .none
    | .error e => return .notRegistered e
  | .registerScript id s => do
    match ← register id (.script (← addScript allScripts s)) with
    | .ok _ => return .none
    | .error e => return .notRegistered e
  | .process => do
    return .number (← processPolicy perform (platform perform) (← get).currentPolicy)
  | .claim => do return .optional (← Controller.claim (platform perform))
  | .newDispatcher external timer software => do
    let table := ⟨← enterClass external, ← enterClass timer, ← enterClass software⟩
    allDispatchers.update (·.push { table })
    return .none
  | .dispatch cause address => dispatchTrap perform (platform perform) cause address
  | .poll => do
    if (← get).interruptAsserted then
      dispatchTrap perform (platform perform) 0x8000000b#32 0x20000400
    else
      return .none
  | .phase => do
    return .text (← (Session.phase (← get).currentDispatcher).read).name
  | .setGlobal enabled => do return .bool (← core.setGlobal enabled)
  | .setClass c enabled => do return .bool (← core.setClass c enabled)
  | .coreState => do return .core (← get).flags
  | .withMasked c ops => do return .list (← core.withMasked c (Proc.sequence (ops.map perform)))
  | .without ops => do return .list (← core.without (Proc.sequence (ops.map perform)))

end Session

/-- Run the steps of a session until one halts. -/
def Session.run (s : Session) (steps : List Op) : List Outcome :=
  runSteps (fun s => { s with left := accessLimit, events := #[] }) (·.events.toList)
    (performNested Session.performWith nestingLimit) steps s

end BoardSupport.Bench
