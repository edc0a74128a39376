import BoardSupport.Proofs.Arbitration
import BoardSupport.Proofs.Station

/-!
A station while nothing goes on outside.

Seen from one channel, such a station is the channel's queues, the controller, the buffer and the
phase of the dispatcher. `Yields` says that a procedure, whatever else there is to the station,
gives a certain result and turns one such view into another.
-/

namespace BoardSupport.Station

variable {η τ α β : Type}

/-- A station as one of its channels sees it. -/
structure View where
  queues : Queues
  arbiter : Arbiter
  buffer : ReceiveBuffer
  completions : ℕ
  phase : Trap.Phase

/-- Nothing will go on outside, and this is what the channel sees. -/
structure Shows (link : Link) (v : View) (s : Station η τ) : Prop where
  calm : s.schedule = []
  queues : s.board.queues link = v.queues
  arbiter : s.board.arbiter = v.arbiter
  buffer : s.buffer = v.buffer
  completions : s.completions = v.completions
  phase : s.phase = v.phase

def Yields (link : Link) (v : View) (x : Proc (Station η τ) α) (a : α) (v' : View) : Prop :=
  ∀ s, Shows link v s → x.Ends s (fun b s' => b = a ∧ Shows link v' s') fun _ => False

/-- A procedure that the channel does not notice. -/
def Unseen (link : Link) (x : Proc (Station η τ) Unit) : Prop := ∀ v, Yields link v x () v

variable {link : Link} {v v' v'' : View} {s : Station η τ}

lemma yields_pure (a : α) : Yields link v (pure a : Proc (Station η τ) α) a v :=
  fun _ hs => (Proc.ends_pure a).2 ⟨rfl, hs⟩

lemma Yields.bind {x : Proc (Station η τ) α} {f : α → Proc (Station η τ) β} {a : α} {b : β}
    (hx : Yields link v x a v') (hf : Yields link v' (f a) b v'') :
    Yields link v (x >>= f) b v'' := by
  intro s hs
  rw [Proc.ends_bind]
  refine (hx s hs).imp ?_
  rintro _ s' ⟨rfl, hs'⟩
  exact hf s' hs'

lemma Yields.congr {x : Proc (Station η τ) α} {a a' : α} (hx : Yields link v x a v') (ha : a = a')
    (hv : v' = v'') : Yields link v x a' v'' := by
  subst ha hv
  exact hx

lemma Yields.discard {x : Proc (Station η τ) α} {a : α} (hx : Yields link v x a v') :
    Yields link v (Functor.discard x : Proc (Station η τ) Unit) () v' := by
  intro s hs
  rw [Proc.ends_discard]
  exact (hx s hs).imp fun _ _ h => ⟨rfl, h.2⟩

/-! ### Cells -/

lemma yields_readBuffer : Yields link v (bufferCell (η := η) (τ := τ)).read v.buffer v :=
  fun _ hs => (Cell.ends_read _).2 ⟨hs.buffer, hs⟩

lemma yields_updateBuffer (f : ReceiveBuffer → ReceiveBuffer) :
    Yields link v ((bufferCell (η := η) (τ := τ)).update f) () { v with buffer := f v.buffer } :=
  fun _ hs => (Cell.ends_update _ f).2
    ⟨rfl, hs.calm, hs.queues, hs.arbiter, congrArg f hs.buffer, hs.completions, hs.phase⟩

lemma yields_readCompletions :
    Yields link v (completionsCell (η := η) (τ := τ)).read v.completions v :=
  fun _ hs => (Cell.ends_read _).2 ⟨hs.completions, hs⟩

lemma yields_updateCompletions (f : ℕ → ℕ) :
    Yields link v ((completionsCell (η := η) (τ := τ)).update f) ()
      { v with completions := f v.completions } :=
  fun _ hs => (Cell.ends_update _ f).2
    ⟨rfl, hs.calm, hs.queues, hs.arbiter, hs.buffer, congrArg f hs.completions, hs.phase⟩

lemma yields_readPhase : Yields link v (phaseCell (η := η) (τ := τ)).read v.phase v :=
  fun _ hs => (Cell.ends_read _).2 ⟨hs.phase, hs⟩

lemma yields_updatePhase (f : Trap.Phase → Trap.Phase) :
    Yields link v ((phaseCell (η := η) (τ := τ)).update f) () { v with phase := f v.phase } :=
  fun _ hs => (Cell.ends_update _ f).2
    ⟨rfl, hs.calm, hs.queues, hs.arbiter, hs.buffer, hs.completions, congrArg f hs.phase⟩

lemma yields_writePhase (phase : Trap.Phase) :
    Yields link v ((phaseCell (η := η) (τ := τ)).write phase) () { v with phase } :=
  yields_updatePhase fun _ => phase

lemma yields_readFixed (a : α) : Yields link v (Cell.fixed (σ := Station η τ) a).read a v :=
  fun _ hs => (Cell.ends_read _).2 ⟨rfl, hs⟩

/-! ### Loops -/

section

variable {log : Log.Record → Proc (Station η τ) Unit} {n : ℕ}
  {step : β → Proc (Station η τ) (β ⊕ α)} {a : α} {b c : β}

lemma Yields.round {w : View} (hstep : Yields link v (step b) (.inl c) w)
    (hrest : Yields link w (Platform.rounds step n c) a v') :
    Yields link v (Platform.rounds step (n + 1) b) a v' :=
  hstep.bind hrest

lemma Yields.last (hstep : Yields link v (step b) (.inr a) v') :
    Yields link v (Platform.rounds step (n + 1) b) a v' :=
  hstep.bind (yields_pure a)

lemma Yields.iterate (h : Yields link v (Platform.rounds step (n + 1) b) a v') :
    Yields link v ((platform log n).iterate step b) a v' :=
  fun s hs => Proc.ends_iterate.2 (h s hs)

end

/-! ### Accesses -/

section

variable {log : Log.Record → Proc (Station η τ) Unit} {patience : ℕ}

lemma meanwhile_of_calm (h : s.schedule = []) : s.meanwhile = s := by
  unfold meanwhile
  rw [h]
  cases s
  subst h
  rfl

lemma Shows.saw (hs : Shows link v s) {board : Board} {h : Happening η}
    (hq : board.queues link = v'.queues) (ha : board.arbiter = v'.arbiter)
    (hb : v'.buffer = v.buffer) (hc : v'.completions = v.completions) (hp : v'.phase = v.phase) :
    Shows link v' (s.saw board h) :=
  ⟨hs.calm, hq, ha, hb ▸ hs.buffer, hc ▸ hs.completions, hp ▸ hs.phase⟩

lemma yields_readChannel {o : ℕ} {u : Word} (ho : o < MemoryMap.blockSize)
    (hne : o ≠ link.layout.rx + QueueRegister.data)
    (hu : v.queues.read? link.layout o = some u) :
    Yields link v ((link.channel (platform log patience)).regs.read o) u v := by
  intro s hs
  rw [link.read_eq _ ho, ends_load, meanwhile_of_calm hs.calm, Board.load_register _ _ _ ho hne,
    hs.queues, hu]
  exact ⟨rfl, hs.saw hs.queues hs.arbiter rfl rfl rfl⟩

lemma yields_writeChannel {o : ℕ} {u : Word} {q : Queues} (ho : o < MemoryMap.blockSize)
    (hq : v.queues.write? link.layout o u = some q) :
    Yields link v ((link.channel (platform log patience)).regs.write o u) ()
      { v with queues := q } := by
  intro s hs
  rw [link.write_eq _ ho, ends_store, meanwhile_of_calm hs.calm,
    Board.store_channel ho (by rw [hs.queues]; exact hq)]
  exact ⟨rfl, hs.saw (Board.queues_setQueues _ _ _) (by simp [hs.arbiter]) rfl rfl rfl⟩

lemma yields_loadData {u : Word} {rest : List Word} (hu : v.queues.rx = u :: rest) :
    Yields link v ((platform log patience).load link.dataAddress .word) u
      { v with queues := { v.queues with rx := rest } } := by
  intro s hs
  rw [ends_load, meanwhile_of_calm hs.calm, Board.load_data, hs.queues]
  simp only [Queues.take?, hu]
  exact ⟨rfl, hs.saw (Board.queues_setQueues _ _ _) (by simp [hs.arbiter]) rfl rfl rfl⟩

lemma yields_readSystem {o : ℕ} {u : Word} (ho : o < MemoryMap.blockSize)
    (hne : o ≠ SystemRegister.claim) (hu : ∀ pending, v.arbiter.read? pending o = some u) :
    Yields link v ((Controller.registers (platform log patience)).read o) u v := by
  intro s hs
  rw [Controller.read_eq _ ho, ends_load, meanwhile_of_calm hs.calm, Board.load_system _ _ ho hne,
    hs.arbiter, hu]
  exact ⟨rfl, hs.saw hs.queues hs.arbiter rfl rfl rfl⟩

lemma yields_writeSystem {o : ℕ} {u : Word} {a : Arbiter} (ho : o < MemoryMap.blockSize)
    (ha : v.arbiter.write? o u = some a) :
    Yields link v ((Controller.registers (platform log patience)).write o u) ()
      { v with arbiter := a } := by
  intro s hs
  rw [Controller.write_eq _ ho, ends_store, meanwhile_of_calm hs.calm,
    Board.store_system ho (by rw [hs.arbiter]; exact ha)]
  exact ⟨rfl, hs.saw (by simp [hs.queues]) rfl rfl rfl rfl⟩

/-- Whether the channel's source is pending, when no request for it waits. -/
lemma Shows.sourcePending (hs : Shows link v s) (h : v.arbiter.raised = 0#64) :
    s.board.sourcePending link.source = (v.queues.pending != 0#32) := by
  rw [Board.sourcePending_source, hs.arbiter, hs.queues, Arbiter.isRaised, h]
  simp

lemma yields_loadClaim (h : v.arbiter.Awaits link.source) (hp : v.queues.pending ≠ 0#32) :
    Yields link v ((platform log patience).load claimAddress .word) (BitVec.ofNat 32 link.source)
      { v with arbiter := v.arbiter.taken link.source } := by
  intro s hs
  have hpending : s.board.sourcePending link.source = true := by
    rw [hs.sourcePending h.raised]; simpa using hp
  rw [ends_load, meanwhile_of_calm hs.calm, Board.load_claim, hs.arbiter,
    h.claim_of_pending hpending]
  exact ⟨rfl, hs.saw (by simp [hs.queues]) rfl rfl rfl rfl⟩

lemma yields_loadClaim_none (h : v.arbiter.Awaits link.source) (hp : v.queues.pending = 0#32) :
    Yields link v ((platform log patience).load claimAddress .word) (BitVec.ofNat 32 Source.count)
      v := by
  intro s hs
  have hpending : s.board.sourcePending link.source = false := by
    rw [hs.sourcePending h.raised]; simpa using hp
  rw [ends_load, meanwhile_of_calm hs.calm, Board.load_claim, hs.arbiter,
    h.claim_of_not_pending hpending]
  exact ⟨rfl, hs.saw (by simp [hs.queues]) rfl rfl rfl rfl⟩

end

/-! ### Drivers -/

section

variable {log : Log.Record → Proc (Station η τ) Unit} {patience : ℕ}

/-- The length of the receive queue, as its register gives it. -/
lemma yields_rxLength :
    Yields link v (link.channel (platform log patience)).rxLength
      (BitVec.ofNat 32 v.queues.rx.length) v :=
  yields_readChannel (o := link.layout.rx + QueueRegister.length) (by cases link <;> decide)
    (by cases link <;> decide) (by cases link <;> rfl)

lemma yields_pendingIrqs :
    Yields link v (link.channel (platform log patience)).pendingIrqs v.queues.pending v :=
  yields_readChannel (o := link.layout.pending) (by cases link <;> decide)
    (by cases link <;> decide) (by cases link <;> rfl)

variable (hlog : ∀ r, Unseen link (log r))

include hlog

lemma yields_claim (h : v.arbiter.Awaits link.source) (hp : v.queues.pending ≠ 0#32) :
    Yields link v (Controller.claim (platform log patience)) (some (BitVec.ofNat 32 link.source))
      { v with arbiter := v.arbiter.taken link.source } := by
  have hid : (BitVec.ofNat 32 link.source).toNat < Source.count := by cases link <;> decide
  rw [Controller.claim_eq]
  refine (yields_loadClaim h hp).bind ?_
  rw [if_pos hid]
  exact (hlog _ _).bind (yields_pure _)

omit hlog in
lemma yields_claim_none (h : v.arbiter.Awaits link.source) (hp : v.queues.pending = 0#32) :
    Yields link v (Controller.claim (platform log patience)) none v := by
  rw [Controller.claim_eq]
  exact (yields_loadClaim_none h hp).bind (yields_pure none)

lemma yields_complete (id : Word) :
    Yields link v (Controller.complete (platform log patience) id) ()
      { v with arbiter := v.arbiter.complete id.toNat } :=
  (hlog _ v).bind (yields_writeSystem (by decide) rfl)

lemma yields_setThreshold (level : Word) :
    Yields link v (Controller.setThreshold (platform log patience) level) ()
      { v with arbiter := { v.arbiter with threshold := level } } :=
  (hlog _ v).bind (yields_writeSystem (by decide) rfl)

lemma yields_configure {id : Word} (hid : id.toNat < Source.count) (c : SourceConfig) :
    Yields link v (Controller.configure (platform log patience) id c) ()
      { v with arbiter :=
        { v.arbiter with
          priority := v.arbiter.priority.setIfInBounds id.toNat c.priority
          trigger := v.arbiter.trigger.setIfInBounds id.toNat
            (if c.mode = .edge then 1#32 else 0#32) } } :=
  (hlog _ v).bind
    ((yields_writeSystem (Controller.priority_lt hid) (Arbiter.write?_priority hid _)).bind
      (yields_writeSystem (Controller.trigger_lt hid) (Arbiter.write?_trigger hid _)))

lemma yields_enable {id : Word} (hid : id.toNat < Source.count) {old : Word}
    (hold : v.arbiter.enable[id.toNat / 32]? = some old) :
    Yields link v (Controller.enable (platform log patience) id) ()
      { v with arbiter :=
        { v.arbiter with
          enable := v.arbiter.enable.setIfInBounds (id.toNat / 32)
            (old ||| (1#32 <<< (id.toNat % 32))) } } := by
  have hword := Controller.word_lt hid
  have hlt := Controller.enable_lt hword
  unfold Controller.enable Controller.setBit Controller.bitOf
  rw [if_pos hid, pure_bind]
  refine (hlog _ v).bind ((yields_readSystem hlt (Controller.enable_ne_claim _) fun pending =>
    (Arbiter.read?_enable hword).trans hold).bind ?_)
  exact Yields.bind ((hlog _ v).bind (yields_pure _))
    (yields_writeSystem hlt (Arbiter.write?_enable hword _))

lemma yields_setRxIrq (t : Word) :
    Yields link v ((link.channel (platform log patience)).setRxIrq true t) ()
      { v with queues :=
        { v.queues with
          rxThreshold := clampRx t (BitVec.ofNat 32 Queues.capacity)
          enable := Irq.receive.putBool true v.queues.enable } } := by
  have hcapacity : Yields link v (link.channel (platform log patience)).rxCapacity
      (BitVec.ofNat 32 Queues.capacity) v :=
    yields_readChannel (o := link.layout.rx + QueueRegister.capacity) (by cases link <;> decide)
      (by cases link <;> decide) (by cases link <;> rfl)
  have hthreshold : ∀ u, Yields link v
      ((link.channel (platform log patience)).regs.write link.layout.rxThreshold u) ()
      { v with queues := { v.queues with rxThreshold := u } } := fun u =>
    yields_writeChannel (by cases link <;> decide) (by cases link <;> rfl)
  have henable : ∀ v : View, Yields link v
      ((link.channel (platform log patience)).setEnable Irq.receive true) ()
      { v with
        queues := { v.queues with enable := Irq.receive.putBool true v.queues.enable } } := by
    intro v
    have hread : Yields link v
        ((link.channel (platform log patience)).regs.read link.layout.enable) v.queues.enable v :=
      yields_readChannel (by cases link <;> decide) (by cases link <;> decide)
        (by cases link <;> rfl)
    exact hread.bind (Yields.bind ((hlog _ v).bind (yields_pure _))
      (yields_writeChannel (o := link.layout.enable) (by cases link <;> decide)
        (by cases link <;> rfl)))
  exact hcapacity.bind ((hlog _ v).bind ((hthreshold _).bind (henable _)))

end

end BoardSupport.Station
