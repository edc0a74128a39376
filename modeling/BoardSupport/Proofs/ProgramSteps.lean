import BoardSupport.Program.SelfTest
import BoardSupport.Proofs.LogCalls
import BoardSupport.Proofs.Station

/-!
What the steps of the program keep.

A relation between states that every access and every record keeps is kept by the logger, by the
drivers and by the handlers that are made of them. Two kinds of steps are left out, for what they do
is what such a relation may be about: loads of units that the UART received, and the records in
which the self-test tells what it found.
-/

namespace BoardSupport

open Program

/-- The procedure keeps the relation whenever it ends. -/
abbrev Proc.Respects {σ α : Type} (R : σ → σ → Prop) (x : Proc σ α) : Prop :=
  Proc.Keeps R (fun _ => True) x

/-! ### The logger -/

namespace Log.Logger

variable {σ : Type} {l : Logger σ} {R : σ → σ → Prop} {E : Halt → Prop}

/-- All that a logger is made of keeps the relation. -/
structure Keeps (l : Logger σ) (R : σ → σ → Prop) (E : Halt → Prop) : Prop where
  ring : ∀ f, Proc.Keeps R E (l.ring.update f)
  stamp : Proc.Keeps R E l.stamp
  accept : ∀ chunk, Proc.Keeps R E (l.accept chunk)
  interrupt : Proc.Keeps R E l.interrupt

variable [IsPreorder σ R]

lemma Keeps.writePieces (h : l.Keeps R E) {pieces : List (Piece σ)}
    (hacts : ∀ x, .act x ∈ pieces → Proc.Keeps R E x) (w : Writer) :
    Proc.Keeps R E (l.writePieces w pieces) := by
  intro s
  refine ends_writePieces (M := fun _ _ s' => R s s') (fun bytes _ w s₁ h₁ => ?_)
    (fun x hx _ _ s₁ h₁ => ?_) [] (refl_of R s)
  · have hring : R s₁ (l.ring.put (Ring.write (l.ring.get s₁, w) bytes).1 s₁) :=
      (Cell.ends_update _ _).1 (h.ring (fun _ => (Ring.write (l.ring.get s₁, w) bytes).1) s₁)
    exact (h.interrupt _).imp fun _ s₂ h₂ => trans_of R h₁ (trans_of R hring h₂)
  · exact (hacts x hx s₁).imp fun _ s₂ h₂ => trans_of R h₁ h₂

lemma Keeps.record (h : l.Keeps R E) {e : Entry σ}
    (hacts : ∀ x, .act x ∈ e.message → Proc.Keeps R E x) : Proc.Keeps R E (l.record e) := by
  refine h.stamp.bind fun stamp => (h.writePieces (fun x hx => ?_) _).bind fun w => h.ring _
  simp only [Entry.pieces, List.mem_append, List.mem_map, reduceCtorEq, and_false, exists_false,
    false_or, List.mem_singleton, or_false] at hx
  exact hacts x hx

lemma Keeps.drain (h : l.Keeps R E) (n : ℕ) : Proc.Keeps R E (l.drain n) := by
  have hslots : Proc.Keeps R E (l.drainSlots n) := by
    refine keeps_drainSlots (fun s chunk _ => ?_) n
    exact (h.accept chunk s).imp fun _ s' h' =>
      trans_of R h' ((Cell.ends_update _ _).1 (h.ring Ring.pop s'))
  refine (Proc.keeps_read _).bind fun r => (h.ring _).bind fun _ => ?_
  split
  · exact (h.accept _).bind fun _ => hslots
  · exact hslots

lemma Keeps.log (h : l.Keeps R E) {e : Entry σ}
    (hacts : ∀ x, .act x ∈ e.message → Proc.Keeps R E x) : Proc.Keeps R E (l.log e) := by
  unfold Logger.log
  split
  · refine (h.record hacts).bind fun _ => (Proc.keeps_read _).bind fun r => ?_
    split
    · exact Proc.keeps_pure _
    · exact (h.ring _).bind fun _ => (h.drain _).bind fun _ => h.ring _
  · exact Proc.keeps_pure _

end Log.Logger

/-! ### Drivers -/

namespace Program.SelfTest

/-- A record of a unit that is as expected. -/
def isPass (r : Log.Record) : Bool := r.site == ⟨path, 111⟩

/-- A record of a unit that differs. -/
def isFail (r : Log.Record) : Bool := r.site == ⟨path, 114⟩

def isVerdict (r : Log.Record) : Bool := isPass r || isFail r

lemma isVerdict_eq_false {r : Log.Record}
    (h : r.site.path ≠ path ∨ r.site.line ≠ 111 ∧ r.site.line ≠ 114) : isVerdict r = false := by
  have hsite : ∀ line, (r.site.path ≠ path ∨ r.site.line ≠ line) →
      (r.site == ⟨path, line⟩) = false := by
    rintro line (hne | hne)
    · exact beq_eq_false_iff_ne.2 fun heq => hne (congrArg Log.Site.path heq)
    · exact beq_eq_false_iff_ne.2 fun heq => hne (congrArg Log.Site.line heq)
  rw [isVerdict, isPass, isFail, hsite 111 (h.imp_right And.left),
    hsite 114 (h.imp_right And.right), Bool.or_self]

end Program.SelfTest

namespace Platform

variable {σ : Type} {R R' : σ → σ → Prop} {p : Platform σ}

/-- All that is done on the platform keeps the relation, but for loads of received units and for
the verdicts of the self-test. -/
structure Keeps (p : Platform σ) (R : σ → σ → Prop) : Prop where
  load : ∀ a w, a ≠ Link.uart.dataAddress → Proc.Respects R (p.load a w)
  store : ∀ a w v, Proc.Respects R (p.store a w v)
  log : ∀ r, SelfTest.isVerdict r = false → Proc.Respects R (p.log r)

lemma Keeps.mono (hp : p.Keeps R) (h : ∀ s s', R s s' → R' s s') : p.Keeps R' :=
  ⟨fun a w ha s => (hp.load a w ha s).imp fun _ _ => h _ _,
    fun a w v s => (hp.store a w v s).imp fun _ _ => h _ _,
    fun r hr s => (hp.log r hr s).imp fun _ _ => h _ _⟩

lemma system_ne_dataAddress {o : ℕ} (h : o < MemoryMap.blockSize) :
    MemoryMap.system + o ≠ Link.uart.dataAddress := by
  have hdata : Link.uart.dataAddress = 0x70001020 := rfl
  simp only [MemoryMap.blockSize] at h
  simp only [MemoryMap.system, hdata]
  omega

/-- No driver tells verdicts. -/
lemma Keeps.message (hp : p.Keeps R) {level : Log.Level} {path : String} {line : ℕ} {text : String}
    (h : path ≠ SelfTest.path) : Proc.Respects R (p.log ⟨level, ⟨path, line⟩, text⟩) :=
  hp.log _ (SelfTest.isVerdict_eq_false (.inl h))

variable {r : Registers σ} {o : ℕ}

lemma Keeps.read (hp : r.platform.Keeps R) (ho : r.base + o ≠ Link.uart.dataAddress) :
    Proc.Respects R (r.read o) := by
  by_cases h : r.base + o < addressLimit
  · rw [Registers.read_eq r h]
    exact hp.load _ _ ho
  · intro s
    unfold Registers.read Registers.address
    rw [if_neg h, Proc.ends_bind, Proc.ends_fault]
    trivial

variable [IsPreorder σ R]

lemma keeps_address (r : Registers σ) (o : ℕ) : Proc.Respects R (r.address o) := by
  unfold Registers.address
  split
  · exact Proc.keeps_pure _
  · exact fun _ => (Proc.ends_fault _).2 trivial

lemma Keeps.write (hp : r.platform.Keeps R) (v : Word) : Proc.Respects R (r.write o v) :=
  (keeps_address r o).bind fun _ => hp.store _ _ _

lemma Keeps.modify (hp : r.platform.Keeps R) (ho : r.base + o ≠ Link.uart.dataAddress)
    {f : Word → Proc σ Word} (hf : ∀ v, Proc.Respects R (f v)) : Proc.Respects R (r.modify o f) :=
  (hp.read ho).bind fun v => (hf v).bind fun _ => hp.write _

lemma Keeps.writeBytes (hp : p.Keeps R) (bytes : List UInt8) :
    Proc.Respects R (Console.writeBytes p bytes) := by
  induction bytes with
  | nil => exact Proc.keeps_pure _
  | cons b rest ih =>
    refine Proc.Keeps.bind ?_ fun _ => ih
    exact (keeps_address _ _).bind fun _ => hp.store _ _ _

lemma Keeps.value (hp : p.Keeps R) : Proc.Respects R (SystemTimer.value p) := by
  have hread : ∀ o < MemoryMap.blockSize, Proc.Respects R ((SystemTimer.registers p).read o) :=
    fun o ho => Keeps.read hp (system_ne_dataAddress ho)
  refine Proc.keeps_iterate trivial (fun _ => Proc.Keeps.bind ?_ fun c => ?_) ()
  · refine (hread _ (by decide)).bind fun high => (hread _ (by decide)).bind fun low =>
      (hread _ (by decide)).bind fun again => ?_
    split
    · exact Proc.keeps_pure _
    · exact (hp.message (by decide)).bind fun _ => Proc.keeps_pure _
  · split <;> exact Proc.keeps_pure _

lemma Keeps.process {η : Type} (hp : p.Keeps R) {table : Cell σ (SourceTable η)}
    {serve : η → Word → Proc σ Unit} (hserve : ∀ h id, Proc.Respects R (serve h id)) :
    Proc.Respects R (SourceTable.process p table serve) := by
  refine Proc.keeps_process trivial (fun r hr => hp.message ?_)
    (hp.load _ _ (system_ne_dataAddress (by decide))) (hp.store _ _) hserve
  rcases hr with hr | hr <;> rw [hr] <;> decide

lemma Keeps.configure (hp : p.Keeps R) (id : Word) (c : SourceConfig) :
    Proc.Respects R (Controller.configure p id c) :=
  (hp.message (by decide)).bind fun _ =>
    (Keeps.write (r := Controller.registers p) hp _).bind fun _ => Keeps.write hp _

lemma Keeps.setThreshold (hp : p.Keeps R) (level : Word) :
    Proc.Respects R (Controller.setThreshold p level) :=
  (hp.message (by decide)).bind fun _ => Keeps.write hp _

lemma Keeps.enable (hp : p.Keeps R) (id : Word) : Proc.Respects R (Controller.enable p id) := by
  refine (hp.message (by decide)).bind fun _ => ?_
  unfold Controller.setBit Controller.bitOf
  split
  · next hid =>
    rw [pure_bind]
    have ho : SystemRegister.enable + id.toNat / 32 * 4 < MemoryMap.blockSize :=
      Controller.enable_lt (Controller.word_lt hid)
    exact Keeps.modify (r := Controller.registers p) hp (system_ne_dataAddress ho) fun _ =>
      (hp.message (by decide)).bind fun _ => Proc.keeps_pure _
  · exact fun _ => Proc.ends_bind.2 ((Proc.ends_fault _).2 trivial)

end Platform

/-! ### The program -/

namespace Program.Host

variable {σ : Type} {h : Host σ} {R : σ → σ → Prop} [IsPreorder σ R]

lemma keeps_logger (hbus : h.bus.Keeps R) (hring : ∀ f, Proc.Respects R (h.ring.update f)) :
    h.logger.Keeps R fun _ => True where
  ring := hring
  stamp := hbus.value.bind fun _ => Proc.keeps_pure _
  accept := hbus.writeBytes
  interrupt := Proc.keeps_pure _

/-- What the logger makes of a record. -/
lemma keeps_logged {E : Halt → Prop} (hlogger : h.logger.Keeps R E) (r : Log.Record) :
    Proc.Keeps R E (do
      let s ← h.state.read
      if s.filter.admits r.level && s.ring.isSome then h.logger.log (.ofRecord r)) := by
  refine (Proc.keeps_read _).bind fun s => ?_
  split
  · exact hlogger.log (by simp [Log.Entry.ofRecord])
  · exact Proc.keeps_pure _

lemma keeps_log {E : Halt → Prop} {r : Log.Record} (hbus : Proc.Keeps R E (h.bus.log r))
    (hlogger : h.logger.Keeps R E) : Proc.Keeps R E (h.log r) :=
  hbus.bind fun _ => keeps_logged hlogger r

lemma keeps_platform (hbus : h.bus.Keeps R) (hring : ∀ f, Proc.Respects R (h.ring.update f)) :
    h.platform.Keeps R where
  load := hbus.load
  store := hbus.store
  log r hr := keeps_log (hbus.log r hr) (keeps_logger hbus hring)

lemma keeps_handleClass (hp : h.platform.Keeps R)
    (hserve : ∀ service id, Proc.Respects R (h.serve service id)) (c : Trap.Class) :
    Proc.Respects R (h.handleClass c) := by
  cases c with
  | external => exact (hp.process hserve).discard
  | software => exact Platform.Keeps.write (r := ⟨h.platform, MemoryMap.system⟩) hp _
  | timer => exact Proc.keeps_pure _

lemma keeps_handleTrap (hp : h.platform.Keeps R) (hphase : ∀ f, Proc.Respects R (h.phase.update f))
    (hserve : ∀ service id, Proc.Respects R (h.serve service id)) (mcause mepc : BitVec 64) :
    Proc.Respects R (h.handleTrap mcause mepc) := by
  refine (Proc.keeps_read _).bind fun state => ?_
  split
  · -- a trap before there is a dispatcher
    exact fun _ => Proc.ends_bind.2 ((Proc.ends_fault _).2 trivial)
  · refine Proc.Keeps.bind (Proc.keeps_dispatch (fun r hr => hp.message ?_) hphase
      (keeps_handleClass hp hserve) _ _) fun result => ?_
    · rw [hr]
      decide
    · cases result with
      | ok address => exact Proc.keeps_pure _
      | error e =>
        -- a fatal trap is told and ends the program
        exact (hp.message (by decide)).bind fun _ => (hp.writeBytes _).bind fun _ =>
          fun _ => (Proc.ends_throw _).2 trivial

lemma keeps_initPolicy (hpolicy : ∀ f, Proc.Respects R (h.policy.update f)) (id : Word)
    (service : Service) : Proc.Respects R (h.initPolicy id service) := by
  refine (Proc.keeps_read _).bind fun state => ?_
  split
  · split
    · exact hpolicy fun _ => _
    · exact fun _ => (Proc.ends_fault _).2 trivial
  · exact Proc.keeps_pure _

lemma keeps_initInterrupts (hp : h.platform.Keeps R)
    (hpolicy : ∀ f, Proc.Respects R (h.policy.update f))
    (hphase : ∀ f, Proc.Respects R (h.phase.update f))
    (hglobal : ∀ b, Proc.Respects R (h.core.setGlobal b))
    (hclass : ∀ c b, Proc.Respects R (h.core.setClass c b)) (id : Word) (config : SourceConfig)
    (service : Service) : Proc.Respects R (h.initInterrupts id config service) := by
  have hinitDispatcher : Proc.Respects R h.initDispatcher := by
    refine (Proc.keeps_read _).bind fun state => ?_
    split
    · exact hphase fun _ => _
    · exact Proc.keeps_pure _
  exact (hp.message (by decide)).bind fun _ => (hp.configure id config).bind fun _ =>
    (hp.setThreshold _).bind fun _ => (keeps_initPolicy hpolicy id service).bind fun _ =>
      hinitDispatcher.bind fun _ => (hp.enable id).bind fun _ => (hclass _ _).discard.bind fun _ =>
        (hclass _ _).discard.bind fun _ => (hglobal _).discard.bind fun _ =>
          hp.message (by decide)

end Program.Host

end BoardSupport
