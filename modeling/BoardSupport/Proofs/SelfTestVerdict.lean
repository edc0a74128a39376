import BoardSupport.Proofs.PrefixLog
import BoardSupport.Proofs.ProgramSteps

/-!
The verdict of the self-test.

The program runs on hardware that may answer anything, and traps may be taken around each of its
accesses, records and waits. A rig notes which units were read from the UART and which records were
logged. The units go into the receive buffer batch by batch, in whatever places the interrupts
come, so when the wait is over the buffer holds the first of them; the verdict is about these.
-/

namespace BoardSupport

open Program

/-! ### Places and waits -/

section

variable {σ α β : Type} {s : σ} {E : Halt → Prop}

lemma Cell.ends_run {c : Cell σ α} {x : Proc α β} {Q : β → σ → Prop} :
    (c.run x).Ends s Q E ↔ x.Ends (c.get s) (fun b a => Q b (c.put a s)) E := by
  unfold Proc.Ends Cell.run
  cases x (c.get s) <;> rfl

/-- A wait ends where its condition was found to hold. -/
lemma Proc.ends_await {R : σ → σ → Prop} [IsPreorder σ R] {p : Platform σ}
    {condition : Proc σ Bool} {P : σ → Prop} (hang : E .hang)
    (h : ∀ s, condition.Ends s (fun r s' => R s s' ∧ (r = true → P s')) E) (s : σ) :
    (p.await condition).Ends s (fun _ s' => R s s' ∧ P s') E := by
  refine Proc.ends_iff_stops.2 (Proc.stops_await (I := R s) (fun s₁ h₁ => ?_) (refl_of R s))
  refine Proc.ends_iff_stops.1 ((h s₁).imp fun r s₂ h₂ => ?_)
  have hboth : R s s₂ := trans_of R h₁ h₂.1
  cases r with
  | true => exact ⟨hboth, h₂.2 rfl⟩
  | false => exact ⟨hboth, hang⟩

end

/-! ### Rigs -/

/-- The program on some hardware, under watch. -/
structure Rig (τ : Type) where
  hardware : τ
  program : State
  /-- What was read from the receive data register of the UART. -/
  moved : List Word := []
  /-- The records that were logged. -/
  records : List Log.Record := []

/-- Hardware, which may do anything. -/
structure Equipment (τ : Type) where
  platform : Platform τ
  core : Core τ
  pause : Proc τ Unit
  hart : ℕ
  custom : ℕ → Word → Proc τ Unit

namespace Rig

variable {τ α : Type}

def hardwareCell : Cell (Rig τ) τ := ⟨hardware, fun t s => { s with hardware := t }⟩

/-- The bus, where it is noted what is received and logged. -/
def bus (m : Equipment τ) : Platform (Rig τ) where
  load a w := do
    let v ← hardwareCell.run (m.platform.load a w)
    if a = Link.uart.dataAddress then modify fun s => { s with moved := s.moved ++ [v] }
    return v
  store a w v := hardwareCell.run (m.platform.store a w v)
  log r := modify fun s => { s with records := s.records ++ [r] }
  patience s := m.platform.patience s.hardware

/-- What handlers run on: nothing breaks in on them. -/
def masked (m : Equipment τ) : Host (Rig τ) where
  bus := bus m
  core := ⟨fun b => hardwareCell.run (m.core.setGlobal b),
    fun c b => hardwareCell.run (m.core.setClass c b)⟩
  pause := hardwareCell.run m.pause
  hart := m.hart
  state := ⟨program, fun p s => { s with program := p }⟩
  custom i id := hardwareCell.run (m.custom i id)

/-- The traps that are due, each with its cause and the address where it breaks in. -/
def takeTraps (m : Equipment τ) (due : Rig τ → List (BitVec 64 × BitVec 64)) :
    Proc (Rig τ) Unit := do
  let s ← get
  (due s).forM fun t => discard ((masked m).handleTrap t.1 t.2)

/-- Something that traps may break in before and after. -/
def amid (m : Equipment τ) (due : Rig τ → List (BitVec 64 × BitVec 64)) (x : Proc (Rig τ) α) :
    Proc (Rig τ) α := do
  takeTraps m due
  let a ← x
  takeTraps m due
  return a

/-- What the program runs on, with the traps that are due at each step. -/
def host (m : Equipment τ) (due : Rig τ → List (BitVec 64 × BitVec 64)) : Host (Rig τ) :=
  { masked m with
    bus :=
      { bus m with
        load := fun a w => amid m due ((bus m).load a w)
        store := fun a w v => amid m due ((bus m).store a w v)
        log := fun r => amid m due ((bus m).log r) }
    core := ⟨fun b => amid m due ((masked m).core.setGlobal b),
      fun c b => amid m due ((masked m).core.setClass c b)⟩
    pause := amid m due (masked m).pause }

variable {m : Equipment τ} {due : Rig τ → List (BitVec 64 × BitVec 64)} {s s' s'' : Rig τ}
  {told told' : List Log.Record}

/-- From `s` to `s'` units were moved into the receive buffer, and nowhere else. -/
def Fills (s s' : Rig τ) : Prop :=
  ∃ units, s'.moved = s.moved ++ units ∧ s.program.received.Took units s'.program.received

/-- From `s` to `s'` the verdicts were logged, among other records. -/
def Tells (told : List Log.Record) (s s' : Rig τ) : Prop :=
  ∃ logged, s'.records = s.records ++ logged ∧ logged.filter SelfTest.isVerdict = told

instance : IsPreorder (Rig τ) Fills where
  refl s := ⟨[], (List.append_nil _).symm, ReceiveBuffer.took_nil _⟩
  trans _ _ _ := by
    rintro ⟨t, ht, htook⟩ ⟨t', ht', htook'⟩
    exact ⟨t ++ t', by rw [ht', ht, List.append_assoc], htook.trans htook'⟩

lemma Tells.trans (h : Tells told s s') (h' : Tells told' s' s'') :
    Tells (told ++ told') s s'' := by
  obtain ⟨l, hl, rfl⟩ := h
  obtain ⟨l', hl', rfl⟩ := h'
  exact ⟨l ++ l', by rw [hl', hl, List.append_assoc], List.filter_append ..⟩

lemma tells_nil_of_eq (h : s'.records = s.records) : Tells [] s s' :=
  ⟨[], by rw [h, List.append_nil], rfl⟩

lemma tells_note (s : Rig τ) (r : Log.Record) :
    Tells ([r].filter SelfTest.isVerdict) s { s with records := s.records ++ [r] } :=
  ⟨[r], rfl, rfl⟩

/-- From `s` to `s'` nothing was received, and no verdict was logged. -/
structure Aside (s s' : Rig τ) : Prop where
  moved : s'.moved = s.moved
  received : s'.program.received = s.program.received
  tells : Tells [] s s'

instance : IsPreorder (Rig τ) Aside where
  refl _ := ⟨rfl, rfl, tells_nil_of_eq rfl⟩
  trans _ _ _ h h' :=
    ⟨h'.moved.trans h.moved, h'.received.trans h.received, h.tells.trans h'.tells⟩

/-- From `s` to `s'` there was reception, and no verdict was logged. -/
structure Receives (s s' : Rig τ) : Prop where
  fills : Fills s s'
  tells : Tells [] s s'

instance : IsPreorder (Rig τ) Receives where
  refl s := ⟨refl_of Fills s, tells_nil_of_eq rfl⟩
  trans _ _ _ h h' := ⟨trans_of Fills h.fills h'.fills, h.tells.trans h'.tells⟩

lemma Aside.receives (h : Aside s s') : Receives s s' := by
  refine ⟨⟨[], by rw [h.moved, List.append_nil], ?_⟩, h.tells⟩
  rw [h.received]
  exact ReceiveBuffer.took_nil _

/-! ### What handlers keep -/

lemma aside_hardware (x : Proc τ α) :
    Proc.Respects Aside (hardwareCell.run x : Proc (Rig τ) α) := by
  intro s
  rw [Cell.ends_run]
  unfold Proc.Ends
  cases x (hardwareCell.get s) with
  | ok a t => exact ⟨rfl, rfl, tells_nil_of_eq rfl⟩
  | error e t => trivial

lemma receives_hardware (x : Proc τ α) :
    Proc.Respects Receives (hardwareCell.run x : Proc (Rig τ) α) := fun s =>
  (aside_hardware x s).imp fun _ _ => Aside.receives

lemma bus_keeps (m : Equipment τ) : (bus m).Keeps Aside where
  load a w ha := by
    refine (aside_hardware _).bind fun v => ?_
    rw [if_neg ha]
    exact Proc.keeps_pure v
  store a w v := aside_hardware _
  log r hr s := by
    have htells := tells_note s r
    rw [List.filter_cons_of_neg (Bool.eq_false_iff.1 hr)] at htells
    exact (Proc.ends_modify _).2 ⟨rfl, rfl, htells⟩

lemma masked_keeps (m : Equipment τ) : (masked m).platform.Keeps Aside :=
  Host.keeps_platform (bus_keeps m) fun _ _ =>
    (Cell.ends_update _ _).2 ⟨rfl, rfl, tells_nil_of_eq rfl⟩

/-- The reception gets what the hardware gives, which is noted. -/
lemma ends_readUnit (w : Width) :
    ((Link.uart.channel (masked m).platform).readUnit w).Ends s (fun u s' => ∃ v, u = w.cut v ∧
      s'.moved = s.moved ++ [v] ∧ s'.program = s.program ∧ s'.records = s.records)
      fun _ => True := by
  rw [Link.readUnit_eq, Proc.ends_bind]
  show ((bus m).load Link.uart.dataAddress .word).Ends s _ _
  unfold bus
  rw [Proc.ends_bind, Cell.ends_run]
  unfold Proc.Ends
  cases m.platform.load Link.uart.dataAddress .word (hardwareCell.get s) with
  | ok v t => exact ⟨v, rfl, rfl, rfl, rfl⟩
  | error e t => trivial

lemma received_lawful (m : Equipment τ) : (masked m).received.Lawful :=
  ⟨fun _ _ => rfl, fun _ => rfl, fun _ _ _ => rfl⟩

/-- As many units as are asked for are moved, and those for which there is a place are written. -/
lemma ends_fill {start n : ℕ} :
    (ReceiveBuffer.fill (masked m).received
      (fun _ => (Link.uart.channel (masked m).platform).readUnit s.program.received.width)
      start n 0 0).Ends s
      (fun k s' => ∃ units, units.length = n ∧ s'.moved = s.moved ++ units ∧
        s'.records = s.records ∧ s'.program.received = s.program.received.writeFrom start units ∧
        k = min n (s.program.received.capacity - start)) fun _ => True := by
  refine (ReceiveBuffer.ends_fill_units (received_lawful m) rfl (M := fun units s' =>
    s'.moved = s.moved ++ units ∧ s'.records = s.records) ?_
    ⟨(List.append_nil _).symm, rfl⟩).imp ?_
  · rintro units s₁ - ⟨hmoved₁, hrecords₁⟩
    refine (ends_readUnit s.program.received.width).imp ?_
    rintro _ s₂ ⟨v, rfl, hmoved₂, hprogram₂, hrecords₂⟩
    refine ⟨v, rfl, congrArg State.received hprogram₂, fun _ => ⟨?_, ?_⟩⟩
    · show s₂.moved = _
      rw [hmoved₂, hmoved₁, List.append_assoc]
    · exact hrecords₂.trans hrecords₁
  · rintro k s' ⟨units, hlength, ⟨hmoved, hrecords⟩, hreceived, hk⟩
    exact ⟨units, hlength, hmoved, hrecords, hreceived, hk⟩

/-- A batch of units is moved into the buffer. -/
lemma ends_append (n : ℕ) :
    (ReceiveBuffer.append (masked m).platform (masked m).received n
      (fun _ => (Link.uart.channel (masked m).platform).readUnit s.program.received.width)).Ends s
      (fun _ s' => Receives s s') fun _ => True := by
  rw [ReceiveBuffer.append, Proc.ends_bind, Cell.ends_read, Proc.ends_bind]
  refine ends_fill.imp ?_
  rintro k s₁ ⟨units, rfl, hmoved₁, hrecords₁, hreceived₁, hk⟩
  have hstart : ((masked m).received.get s).count = s.program.received.count := rfl
  rw [hstart] at hreceived₁ hk ⊢
  have hdropped : s₁.program.received.dropped = s.program.received.dropped := by
    rw [hreceived₁, ReceiveBuffer.writeFrom_dropped]
  have htook := s.program.received.took_writeFrom units
  rw [← hk, ← hreceived₁, show units.length - (s.program.received.capacity -
    s.program.received.count) = units.length - k by omega] at htook
  -- a record may come between the units and their publication
  have hpublish : ∀ s₂ : Rig τ, s₂.moved = s₁.moved → Tells [] s₁ s₂ →
      s₂.program.received = { s₁.program.received with
        dropped := s.program.received.dropped + (units.length - k) } →
      Receives s ((masked m).received.put { s₂.program.received with
        count := s.program.received.count + k } s₂) := by
    intro s₂ hmoved₂ htells₂ hreceived₂
    refine ⟨⟨units, hmoved₂.trans hmoved₁, ?_⟩, (tells_nil_of_eq hrecords₁).trans htells₂⟩
    show s.program.received.Took units { s₂.program.received with
      count := s.program.received.count + k }
    rw [hreceived₂]
    exact htook
  split
  · -- bytes that found no place are told of before the rest is published
    rw [Proc.ends_bind, Cell.ends_update, Proc.ends_bind]
    refine ((masked_keeps m).message (by decide) _).imp fun _ s₂ h₂ => ?_
    rw [Proc.ends_bind, Cell.ends_update, Proc.ends_pure]
    refine hpublish s₂ h₂.moved h₂.tells (h₂.received.trans ?_)
    rw [← hdropped]
    rfl
  · rw [Proc.ends_bind, Cell.ends_update, Proc.ends_pure]
    refine hpublish s₁ rfl (tells_nil_of_eq rfl) ?_
    rw [← hdropped, show units.length - k = 0 by omega]
    rfl

lemma handle_receives (id : Word) : Proc.Respects Receives ((masked m).reception.handle id) := by
  have hp := masked_keeps m
  have hread : ∀ o, MemoryMap.uart + o ≠ Link.uart.dataAddress → Proc.Respects Aside
      ((Link.uart.channel (masked m).platform).regs.read o) := fun o ho => Platform.Keeps.read hp ho
  intro s
  rw [Reception.handle, Proc.ends_bind]
  refine (hread Link.uart.layout.pending (by decide) s).imp fun pending s₁ h₁ => ?_
  split
  · rw [Proc.ends_bind]
    refine (hread (Link.uart.layout.rx + QueueRegister.length) (by decide) s₁).imp
      fun waiting s₂ h₂ => ?_
    rw [Proc.ends_bind, Cell.ends_read, Proc.ends_bind]
    refine (ends_append _).imp fun stored s₃ h₃ => ?_
    rw [Proc.ends_bind, Cell.ends_update, Proc.ends_bind, Cell.ends_read, Proc.ends_bind,
      Cell.ends_read]
    refine (hp.message (by decide) _).imp fun _ s₄ h₄ => ?_
    have hbefore : Receives s s₃ := trans_of Receives (trans_of Aside h₁ h₂).receives h₃
    have hcounted : Aside s₃ ((masked m).completions.put ((masked m).completions.get s₃ + 1) s₃) :=
      ⟨rfl, rfl, tells_nil_of_eq rfl⟩
    exact trans_of Receives hbefore (trans_of Aside hcounted h₄).receives
  · exact (hp.message (by decide) s₁).imp fun _ s₂ h₂ => (trans_of Aside h₁ h₂).receives

lemma handleTrap_receives (mcause mepc : BitVec 64) :
    Proc.Respects Receives ((masked m).handleTrap mcause mepc) := by
  refine Host.keeps_handleTrap ((masked_keeps m).mono fun _ _ => Aside.receives)
    (fun _ _ => (Cell.ends_update _ _).2 (Aside.receives ⟨rfl, rfl, tells_nil_of_eq rfl⟩))
    (fun service id => ?_) mcause mepc
  cases service with
  | reception => exact handle_receives id
  | custom i => exact receives_hardware _

lemma takeTraps_receives (m : Equipment τ) (due : Rig τ → List (BitVec 64 × BitVec 64)) :
    Proc.Respects Receives (takeTraps m due) := by
  have hall : ∀ traps : List (BitVec 64 × BitVec 64), Proc.Respects Receives
      (traps.forM fun t => discard ((masked m).handleTrap t.1 t.2)) := by
    intro traps
    induction traps with
    | nil => exact Proc.keeps_pure _
    | cons t rest ih => exact (handleTrap_receives t.1 t.2).discard.bind fun _ => ih
  intro s
  rw [takeTraps, Proc.ends_bind, Proc.ends_get]
  exact hall (due s) s

lemma amid_receives {x : Proc (Rig τ) α} (hx : Proc.Respects Receives x) :
    Proc.Respects Receives (amid m due x) :=
  (takeTraps_receives m due).bind fun _ => hx.bind fun _ =>
    (takeTraps_receives m due).bind fun _ => Proc.keeps_pure _

lemma host_bus_keeps (m : Equipment τ) (due : Rig τ → List (BitVec 64 × BitVec 64)) :
    (host m due).bus.Keeps Receives := by
  have hbus : (bus m).Keeps Receives := (bus_keeps m).mono fun _ _ => Aside.receives
  refine ⟨?_, ?_, ?_⟩
  · exact fun a w ha => amid_receives (hbus.load a w ha)
  · exact fun a w v => amid_receives (hbus.store a w v)
  · exact fun r hr => amid_receives (hbus.log r hr)

/-- The program's own state beside the receive buffer. -/
lemma receives_update (f : State → State) (h : ∀ p, (f p).received = p.received) :
    Proc.Respects Receives ((host m due).state.update f) := fun s =>
  (Cell.ends_update _ _).2 (Aside.receives ⟨rfl, h s.program, tells_nil_of_eq rfl⟩)

lemma receives_ring (f : Log.Ring → Log.Ring) :
    Proc.Respects Receives ((host m due).ring.update f) :=
  receives_update (fun p => { p with ring := some (f (p.ring.getD (.new 0))) }) fun _ => rfl

lemma host_keeps (m : Equipment τ) (due : Rig τ → List (BitVec 64 × BitVec 64)) :
    (host m due).platform.Keeps Receives := Host.keeps_platform (host_bus_keeps m due) receives_ring

/-! ### What the program keeps on its way to the comparison -/

end Rig

namespace Platform

variable {σ : Type} {R : σ → σ → Prop} {p : Platform σ}

/-- What else the self-test has to say. -/
lemma Keeps.remark (hp : p.Keeps R) {level : Log.Level} {line : ℕ} {text : String}
    (h : line ≠ 111 ∧ line ≠ 114) :
    Proc.Respects R (p.log ⟨level, ⟨SelfTest.path, line⟩, text⟩) :=
  hp.log _ (SelfTest.isVerdict_eq_false (.inr h))

lemma Keeps.uartRead (hp : p.Keeps R) {o : ℕ} (ho : MemoryMap.uart + o ≠ Link.uart.dataAddress) :
    Proc.Respects R ((Link.uart.channel p).regs.read o) := Keeps.read hp ho

variable [IsPreorder σ R]

lemma Keeps.send (hp : p.Keeps R) (w : Width) (units : List Word) :
    Proc.Respects R ((Link.uart.channel p).send w units) := by
  refine (hp.uartRead (o := Link.uart.layout.tx + QueueRegister.capacity) (by decide)).bind
    fun capacity => ?_
  induction units with
  | nil => exact Proc.keeps_pure _
  | cons unit rest ih =>
    refine Proc.Keeps.bind (Proc.keeps_iterate trivial (fun _ => ?_) ()) fun _ =>
      (Keeps.write hp _).bind fun _ => ih
    exact (Proc.Keeps.bind (hp.uartRead (o := Link.uart.layout.tx + QueueRegister.length)
      (by decide)) fun _ => Proc.keeps_pure _).bind fun _ => Proc.keeps_pure _

lemma Keeps.setRxIrq (hp : p.Keeps R) (threshold : Word) :
    Proc.Respects R ((Link.uart.channel p).setRxIrq true threshold) := by
  refine (hp.uartRead (o := Link.uart.layout.rx + QueueRegister.capacity) (by decide)).bind
    fun capacity => (hp.message (by decide)).bind fun _ => (Keeps.write hp _).bind fun _ => ?_
  have henable : MemoryMap.uart + Link.uart.layout.enable ≠ Link.uart.dataAddress := by decide
  exact Keeps.modify (r := (Link.uart.channel p).regs) hp henable fun _ =>
    (hp.message (by decide)).bind fun _ => Proc.keeps_pure _

lemma Keeps.uartInit (hp : p.Keeps R) (c : Uart.Config) : Proc.Respects R (Uart.init p c) := by
  unfold Uart.init
  split
  · exact Proc.keeps_pure _
  · exact (hp.message (by decide)).bind fun _ =>
      (Keeps.write (r := Uart.registers p) hp _).bind fun _ => Proc.keeps_pure _

end Platform

namespace Rig

variable {τ : Type} {m : Equipment τ} {due : Rig τ → List (BitVec 64 × BitVec 64)} {s s' : Rig τ}

lemma initReception_receives : Proc.Respects Receives (SelfTest.initReception (host m due)) := by
  intro s
  rw [SelfTest.initReception, Proc.ends_bind, Cell.ends_read]
  split
  · -- the writing end is taken once, by the first to set up
    rw [Proc.ends_bind, Cell.ends_read, Proc.ends_bind]
    have hbare := ReceiveBuffer.bare_takeWriter s.program.received
    show (Proc.ofOption _ s.program.received.takeWriter).Ends s _ _
    cases htake : s.program.received.takeWriter with
    | none => exact (Proc.ends_fault _).2 trivial
    | some b =>
      rw [htake, Option.getD_some] at hbare
      show (pure b : Proc (Rig τ) ReceiveBuffer).Ends s _ _
      rw [Proc.ends_pure, Proc.ends_bind, Cell.ends_write, Cell.ends_write]
      exact ⟨⟨[], (List.append_nil _).symm,
        (ReceiveBuffer.took_nil s.program.received).of_bare hbare⟩, tells_nil_of_eq rfl⟩
  · exact (Proc.ends_pure _).2 (refl_of Receives s)

lemma setUp_receives : Proc.Respects Receives (SelfTest.setUp (host m due)) := by
  have hp := host_keeps m due
  have hinterrupts := Host.keeps_initInterrupts hp
    (fun f => receives_update (fun p => { p with policy := some (f (p.policy.getD .empty)) })
      fun _ => rfl)
    (fun f => receives_update (fun p => { p with phase := some (f (p.phase.getD .idle)) })
      fun _ => rfl)
    (fun b => amid_receives (receives_hardware _))
    (fun c b => amid_receives (receives_hardware _))
  refine (hp.uartInit {}).bind fun result => ?_
  cases result with
  | error e => exact fun _ => Proc.ends_bind.2 ((Proc.ends_fault _).2 trivial)
  | ok _ =>
    exact (hp.remark (by decide)).bind fun _ => initReception_receives.bind fun _ =>
      (hinterrupts _ _ _).bind fun _ => (hp.setRxIrq _).bind fun _ => hp.remark (by decide)

lemma sendAll_receives (units : List Word) : Proc.Respects Receives
    (SelfTest.sendAll (Link.uart.channel (host m due).platform) units) := by
  induction units with
  | nil => exact Proc.keeps_pure _
  | cons unit rest ih => exact ((host_keeps m due).send .byte [unit]).bind fun _ => ih

lemma ends_awaitAll (s : Rig τ) : (SelfTest.awaitAll (host m due)).Ends s
    (fun _ s' => Receives s s' ∧ testLength ≤ s'.program.received.count) fun _ => True := by
  refine Proc.ends_await trivial (fun s => ?_) s
  rw [Proc.ends_bind, Cell.ends_read]
  split
  · rw [Proc.ends_bind]
    refine (amid_receives (receives_hardware _) s).imp fun _ s' h => ?_
    exact (Proc.ends_pure _).2 ⟨h, fun h => absurd h Bool.false_ne_true⟩
  · next hcount => exact (Proc.ends_pure _).2 ⟨refl_of Receives s, fun _ => Nat.not_lt.1 hcount⟩

end Rig

/-! ### The comparison -/

namespace Program.SelfTest

/-- What is logged of unit number `i`. -/
def verdict (i : ℕ) (expected actual : Word) : Log.Record :=
  if expected = actual then
    ⟨.info, ⟨path, 111⟩, "Data " ++ Text.decimal i ++ ": PASS, 0x" ++ Text.hex actual.toNat⟩
  else
    ⟨.error, ⟨path, 114⟩, "Data " ++ Text.decimal i ++ ": FAIL, 0x" ++ Text.hex expected.toNat ++
      " vs. 0x" ++ Text.hex actual.toNat⟩

/-- What is logged of the units from number `i` up. -/
def verdicts : ℕ → List (Word × Word) → List Log.Record
  | _, [] => []
  | i, (expected, actual) :: rest => verdict i expected actual :: verdicts (i + 1) rest

def differs (pair : Word × Word) : Bool := decide (pair.1 ≠ pair.2)

variable (i : ℕ) (expected actual : Word) (pairs : List (Word × Word))

lemma isFail_verdict : isFail (verdict i expected actual) = differs (expected, actual) := by
  unfold verdict differs
  split
  · next heq => simp [isFail, heq]
  · next hne => simp [isFail, hne]

lemma isPass_verdict : isPass (verdict i expected actual) = !differs (expected, actual) := by
  unfold verdict differs
  split
  · next heq => simp [isPass, heq]
  · next hne => simp [isPass, hne]

lemma isVerdict_verdict : isVerdict (verdict i expected actual) = true := by
  rw [isVerdict, isPass_verdict, isFail_verdict, Bool.not_or_self]

lemma countP_isFail_verdicts : (verdicts i pairs).countP isFail = pairs.countP differs := by
  induction pairs generalizing i with
  | nil => rfl
  | cons pair rest ih => rw [verdicts, List.countP_cons, List.countP_cons, ih, isFail_verdict]

lemma countP_verdicts :
    (verdicts i pairs).countP isPass + (verdicts i pairs).countP isFail = pairs.length := by
  induction pairs generalizing i with
  | nil => rfl
  | cons pair rest ih =>
    rw [verdicts, List.countP_cons, List.countP_cons, isPass_verdict, isFail_verdict,
      List.length_cons, ← ih (i + 1)]
    cases differs (pair.1, pair.2) <;> simp <;> omega

/-- Pairs that differ are positions where the lists do. -/
lemma countP_zip_differs {l l' : List Word} (h : l.length = l'.length) :
    (l.zip l').countP differs = (List.range l.length).countP fun i =>
      decide ((l'.map BitVec.toNat)[i]? ≠ (l.map BitVec.toNat)[i]?) := by
  induction l generalizing l' with
  | nil => rfl
  | cons a l ih =>
    cases l' with
    | nil => cases h
    | cons b l' =>
      have hhead : differs (a, b) = decide (((b :: l').map BitVec.toNat)[0]? ≠
          ((a :: l).map BitVec.toNat)[0]?) := by
        refine decide_eq_decide.2 (not_congr ⟨fun heq => ?_, fun heq => ?_⟩)
        · exact congrArg (fun u : Word => some u.toNat) heq.symm
        · exact (BitVec.eq_of_toNat_eq (Option.some.inj heq)).symm
      rw [List.zip_cons_cons, List.countP_cons, ih (Nat.succ.inj h), List.length_cons,
        List.range_succ_eq_map, List.countP_cons, List.countP_map, hhead]
      rfl

lemma pattern_toNat : pattern.map BitVec.toNat = List.range' 1 16 := by decide

lemma countP_differs_pattern {words : List Word} (h : words.length = testLength) :
    (pattern.zip words).countP differs =
      (List.range 16).countP fun i => (words.map BitVec.toNat)[i]? ≠ some (i + 1) := by
  rw [countP_zip_differs (h.symm ▸ rfl), pattern_toNat]
  refine List.countP_congr fun i hi => ?_
  have hlt : i < 16 := List.mem_range.1 hi
  rw [List.getElem?_range' hlt, Nat.one_mul, Nat.add_comm]

lemma countP_eq_zero_iff {bytes : List ℕ} (h : bytes.length = 16) :
    (List.range 16).countP (fun i => bytes[i]? ≠ some (i + 1)) = 0 ↔ bytes = List.range' 1 16 := by
  rw [List.countP_eq_zero]
  constructor
  · intro hall
    refine List.ext_getElem? fun i => ?_
    by_cases hi : i < 16
    · have hbyte := of_not_not fun hne => hall i (List.mem_range.2 hi) (decide_eq_true hne)
      rw [hbyte, List.getElem?_range' hi, Nat.one_mul, Nat.add_comm]
    · have hbeyond : (List.range' 1 16).length ≤ i := by
        rw [List.length_range']
        omega
      rw [List.getElem?_eq_none (by omega), List.getElem?_eq_none hbeyond]
  · rintro rfl i hi
    rw [List.getElem?_range' (List.mem_range.1 hi), Nat.one_mul, Nat.add_comm]
    simp

lemma countP_filter_isVerdict {f : Log.Record → Bool}
    (hf : ∀ r, f r = true → isVerdict r = true) (l : List Log.Record) :
    (l.filter isVerdict).countP f = l.countP f := by
  rw [List.countP_filter]
  refine List.countP_congr fun r _ => ?_
  rw [Bool.and_eq_true]
  exact and_iff_left_of_imp (hf r)

end Program.SelfTest

namespace Rig

variable {τ : Type} {m : Equipment τ} {due : Rig τ → List (BitVec 64 × BitVec 64)} {s s' : Rig τ}

/-- A verdict is noted, whatever traps come before and after. -/
lemma ends_tell (m : Equipment τ) (due : Rig τ → List (BitVec 64 × BitVec 64)) {r : Log.Record}
    (hr : SelfTest.isVerdict r = true) (s : Rig τ) :
    ((host m due).platform.log r).Ends s (fun _ s' => Fills s s' ∧ Tells [r] s s')
      fun _ => True := by
  have hlogger : (host m due).logger.Keeps Receives fun _ => True :=
    Host.keeps_logger (host_bus_keeps m due) receives_ring
  show ((host m due).bus.log r >>= fun _ => _).Ends s _ _
  rw [Proc.ends_bind]
  show (amid m due ((bus m).log r)).Ends s _ _
  rw [amid, Proc.ends_bind]
  refine (takeTraps_receives m due s).imp fun _ s₁ h₁ => ?_
  rw [Proc.ends_bind]
  show (modify _ : Proc (Rig τ) Unit).Ends s₁ _ _
  rw [Proc.ends_modify, Proc.ends_bind]
  have htells := tells_note s₁ r
  rw [List.filter_cons_of_pos hr] at htells
  refine (takeTraps_receives m due _).imp fun _ s₂ h₂ => ?_
  rw [Proc.ends_pure]
  refine (Host.keeps_logged hlogger r s₂).imp fun _ s₃ h₃ => ?_
  have hrest := trans_of Receives h₂ h₃
  refine ⟨trans_of Fills h₁.fills hrest.fills, ?_⟩
  exact (h₁.tells.trans htells).trans hrest.tells

lemma ends_compare (i : ℕ) (pairs : List (Word × Word)) (s : Rig τ) :
    (SelfTest.compare (host m due) i pairs).Ends s (fun n s' => Fills s s' ∧
      Tells (SelfTest.verdicts i pairs) s s' ∧ n = pairs.countP SelfTest.differs)
      fun _ => True := by
  induction pairs generalizing i s with
  | nil =>
    rw [SelfTest.compare, Proc.ends_pure]
    exact ⟨refl_of Fills s, tells_nil_of_eq rfl, rfl⟩
  | cons pair rest ih =>
    obtain ⟨expected, actual⟩ := pair
    have htell := ends_tell m due (SelfTest.isVerdict_verdict i expected actual) s
    rw [SelfTest.compare]
    split
    · next heq =>
      rw [SelfTest.verdict, if_pos heq] at htell
      rw [Proc.ends_bind]
      refine htell.imp ?_
      rintro _ s₁ ⟨hfills₁, htells₁⟩
      refine (ih (i + 1) s₁).imp ?_
      rintro n s₂ ⟨hfills₂, htells₂, rfl⟩
      have hsame : SelfTest.differs (expected, actual) = false := decide_eq_false (not_not.2 heq)
      refine ⟨trans_of Fills hfills₁ hfills₂, ?_, ?_⟩
      · rw [SelfTest.verdicts, SelfTest.verdict, if_pos heq]
        exact htells₁.trans htells₂
      · rw [List.countP_cons_of_neg (Bool.eq_false_iff.1 hsame)]
    · next hne =>
      rw [SelfTest.verdict, if_neg hne] at htell
      rw [Proc.ends_bind]
      refine htell.imp ?_
      rintro _ s₁ ⟨hfills₁, htells₁⟩
      rw [Proc.ends_bind]
      refine (ih (i + 1) s₁).imp ?_
      rintro n s₂ ⟨hfills₂, htells₂, rfl⟩
      have hdiffers : SelfTest.differs (expected, actual) = true := decide_eq_true hne
      rw [Proc.ends_pure]
      refine ⟨trans_of Fills hfills₁ hfills₂, ?_, ?_⟩
      · rw [SelfTest.verdicts, SelfTest.verdict, if_neg hne]
        exact htells₁.trans htells₂
      · rw [List.countP_cons_of_pos hdiffers]

lemma Fills.count_le (h : Fills s s') : s.program.received.count ≤ s'.program.received.count := by
  obtain ⟨t, -, htook⟩ := h
  rw [htook.count]
  exact Nat.le_add_right _ _

/-- The exit code is about the units that were received by `s₁`, and so are the verdicts. -/
structure Judged (s s₁ s' : Rig τ) (code : ℕ) : Prop where
  before : Fills s s₁
  after : Fills s₁ s'
  full : testLength ≤ s₁.program.received.count
  tells : Tells (SelfTest.verdicts 0 (SelfTest.pattern.zip s₁.program.received.received)) s s'
  code : code =
    if 0 < (SelfTest.pattern.zip s₁.program.received.received).countP SelfTest.differs then 1 else 0

lemma ends_run (s : Rig τ) : (SelfTest.run (host m due)).Ends s
    (fun code s' => ∃ s₁, Judged s s₁ s' code) fun _ => True := by
  have hp := host_keeps m due
  rw [SelfTest.run, Proc.ends_bind]
  refine (setUp_receives s).imp fun _ s₁ h₁ => ?_
  rw [Proc.ends_bind]
  refine (sendAll_receives _ s₁).imp fun _ s₂ h₂ => ?_
  rw [Proc.ends_bind, Cell.ends_read, Proc.ends_bind]
  refine (hp.remark (by decide) s₂).imp fun _ s₃ h₃ => ?_
  rw [Proc.ends_bind]
  refine (ends_awaitAll s₃).imp ?_
  rintro _ s₄ ⟨h₄, hcount⟩
  rw [Proc.ends_bind, Cell.ends_read, Proc.ends_bind, Cell.ends_read, Proc.ends_bind]
  refine (hp.remark (by decide) s₄).imp fun _ s₅ h₅ => ?_
  rw [Proc.ends_bind, Cell.ends_read, Proc.ends_bind]
  refine (ends_compare 0 _ s₅).imp ?_
  rintro n s₆ ⟨hfills₆, htells₆, rfl⟩
  have hbefore : Receives s s₅ := trans_of Receives (trans_of Receives (trans_of Receives
    (trans_of Receives h₁ h₂) h₃) h₄) h₅
  have hjudged : ∀ {s' code}, Receives s₆ s' →
      (code = if 0 < (SelfTest.pattern.zip s₅.program.received.received).countP SelfTest.differs
        then 1 else 0) → Judged s s₅ s' code := by
    intro s' code h' hcode
    refine ⟨hbefore.fills, trans_of Fills hfills₆ h'.fills, hcount.trans h₅.fills.count_le, ?_,
      hcode⟩
    have htells := (hbefore.tells.trans htells₆).trans h'.tells
    rwa [List.nil_append, List.append_nil] at htells
  split
  · next hpos =>
    rw [Proc.ends_bind]
    refine (hp.remark (by decide) s₆).imp fun _ s₇ h₇ => ?_
    exact (Proc.ends_pure _).2 ⟨s₅, hjudged h₇ (if_pos hpos).symm⟩
  · next hzero =>
    rw [Proc.ends_bind]
    refine (hp.remark (by decide) s₆).imp fun _ s₇ h₇ => ?_
    exact (Proc.ends_pure _).2 ⟨s₅, hjudged h₇ (if_neg hzero).symm⟩

/-- The self-test with a new receive buffer, on any hardware, with any traps around its steps. If it
returns, then at least 16 units were read from the UART, and the first 16 of them, as bytes, decide:
the result is 0 if they are 1 to 16 in order, and 1 otherwise. One record was logged for each of
them, and as many of these are failures as there are positions where the byte differs. -/
theorem run_judges_first_units (m : Equipment τ) (due : Rig τ → List (BitVec 64 × BitVec 64))
    {s s' : Rig τ} {code : ℕ} (hnew : s.program.received = .new .byte testLength)
    (hrun : SelfTest.run (host m due) s = .ok code s') :
    ∃ units more bytes logged, s'.moved = s.moved ++ (units ++ more) ∧
      bytes = units.map (fun unit => (Width.byte.cut unit).toNat) ∧ bytes.length = 16 ∧
      (code = 0 ↔ bytes = List.range' 1 16) ∧ (code ≠ 0 → code = 1) ∧
      s'.records = s.records ++ logged ∧
      logged.countP SelfTest.isFail = (List.range 16).countP (fun i => bytes[i]? ≠ some (i + 1)) ∧
      logged.countP SelfTest.isPass + logged.countP SelfTest.isFail = 16 := by
  obtain ⟨s₁, ⟨t, ht, htook⟩, ⟨t', ht', -⟩, hfull, ⟨logged, hlogged, htold⟩, hcode⟩ :=
    (ends_run s).of_ok hrun
  rw [hnew] at htook
  have hlength : testLength ≤ t.length := by
    have hcount : s₁.program.received.count = 0 + min t.length (testLength - 0) := htook.count
    omega
  have hreceived : s₁.program.received.received = (t.take testLength).map Width.byte.cut :=
    htook.received
  generalize hwords : (t.take testLength).map Width.byte.cut = words at hreceived
  have hwordsLength : words.length = testLength := by
    rw [← hwords, List.length_map, List.length_take, Nat.min_eq_left hlength]
  rw [hreceived] at htold hcode
  have hpass : logged.countP SelfTest.isPass =
      (SelfTest.verdicts 0 (SelfTest.pattern.zip words)).countP SelfTest.isPass := by
    rw [← htold, SelfTest.countP_filter_isVerdict fun r hr => ?_]
    rw [SelfTest.isVerdict, hr, Bool.true_or]
  have hfail : logged.countP SelfTest.isFail =
      (SelfTest.verdicts 0 (SelfTest.pattern.zip words)).countP SelfTest.isFail := by
    rw [← htold, SelfTest.countP_filter_isVerdict fun r hr => ?_]
    rw [SelfTest.isVerdict, hr, Bool.or_true]
  have hdiffers := SelfTest.countP_differs_pattern hwordsLength
  refine ⟨t.take testLength, t.drop testLength ++ t', words.map BitVec.toNat, logged, ?_, ?_, ?_,
    ?_, ?_, hlogged, ?_, ?_⟩
  · rw [ht', ht, ← List.append_assoc (t.take testLength), List.take_append_drop, List.append_assoc]
  · rw [← hwords, List.map_map]
    rfl
  · rw [List.length_map, hwordsLength]
    rfl
  · rw [hcode, hdiffers, ← SelfTest.countP_eq_zero_iff (by rw [List.length_map, hwordsLength]; rfl)]
    split <;> omega
  · rw [hcode]
    split <;> simp
  · rw [hfail, SelfTest.countP_isFail_verdicts, hdiffers]
  · rw [hpass, hfail, SelfTest.countP_verdicts, List.length_zip, hwordsLength]
    rfl

/-- A board and nothing else. -/
def plainBoard : Equipment Board where
  platform := Board.platform 4
  core := ⟨fun _ => pure false, fun _ _ => pure false⟩
  pause := pure ()
  hart := 0
  custom _ _ := pure ()

/-- An external interrupt whenever four units wait. -/
def atThreshold (s : Rig Board) : List (BitVec 64 × BitVec 64) :=
  if 4 ≤ (s.hardware.queues .uart).rx.length then [(0x8000000b#64, 0x20000000#64)] else []

/-- The line is looped back, but a unit waits already. -/
def shifted : Rig Board where
  hardware := ((Board.new.setWire .uart .loopback).peerSend .uart 0x63#32).2
  program := {}

/-- The result of a run and the first units that it moved. -/
def outcome : EStateM.Result Halt (Rig Board) ℕ → Option (ℕ × List Word)
  | .ok code s => some (code, s.moved.take 16)
  | .error _ _ => none

theorem run_judges_first_units_shifted :
    ∃ s' logged, SelfTest.run (host plainBoard atThreshold) shifted = .ok 1 s' ∧
      s'.records = logged ∧ logged.countP SelfTest.isFail = 16 ∧
      logged.countP SelfTest.isPass = 0 := by
  have houtcome : outcome (SelfTest.run (host plainBoard atThreshold) shifted) =
      some (1, 0x63#32 :: (SelfTest.pattern.take 15)) := by decide +kernel
  cases hrun : SelfTest.run (host plainBoard atThreshold) shifted with
  | error e s' =>
    rw [hrun] at houtcome
    cases houtcome
  | ok code s' =>
    rw [hrun] at houtcome
    obtain ⟨rfl, hmoved⟩ := Prod.mk.inj (Option.some.inj houtcome)
    obtain ⟨units, more, bytes, logged, hunits, rfl, hlength, -, -, hlogged, hfail, htotal⟩ :=
      run_judges_first_units plainBoard atThreshold rfl hrun
    have hfirst : units = 0x63#32 :: SelfTest.pattern.take 15 := by
      rw [← hmoved, hunits]
      rw [List.length_map] at hlength
      exact (List.take_left' hlength).symm
    have hall : logged.countP SelfTest.isFail = 16 := by
      rw [hfail, hfirst]
      decide
    exact ⟨s', logged, rfl, hlogged, hall, by omega⟩

end Rig

end BoardSupport
