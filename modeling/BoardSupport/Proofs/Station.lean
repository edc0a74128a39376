import BoardSupport.Interrupt.Policy
import BoardSupport.Interrupt.Reception
import BoardSupport.Proofs.Access
import BoardSupport.Proofs.Outcome
import BoardSupport.Trap.Dispatcher

/-!
A station: a board at work among its peers, and a record of all that happens.

Between any two accesses of the program the world outside may act on the board, as a schedule
says. Accesses, arrivals and calls of handlers are written down in order. Handlers are named by
`η`, and `τ` is whatever else there is to the state.
-/

namespace BoardSupport

/-- What the world outside does to a board. -/
inductive Outside where
  | send (link : Link) (unit : Word)
  | take (link : Link) (n : ℕ)
  | rewire (link : Link) (wire : Wire)
  | request (id : Fin Source.count)

inductive Happening (η : Type) where
  | load (address : ℕ) (w : Width) (v : Word)
  | store (address : ℕ) (w : Width) (v : Word)
  /-- A peer sent a unit, and whether it found a place. -/
  | sent (link : Link) (unit : Word) (accepted : Bool)
  | enter (h : η) (id : Word)
  | leave (h : η) (id : Word)

def Happening.isAccess {η : Type} : Happening η → Bool
  | .load .. | .store .. => true
  | _ => false

structure Station (η τ : Type) where
  board : Board
  /-- What happens outside just before each of the coming accesses. -/
  schedule : List (List Outside) := []
  buffer : ReceiveBuffer
  completions : ℕ := 0
  phase : Trap.Phase := .idle
  rest : τ
  trace : List (Happening η) := []

namespace Station

variable {η τ α : Type}

/-- The receive queue of a channel. -/
def rx (s : Station η τ) (link : Link) : List Word := (s.board.queues link).rx

def bufferCell : Cell (Station η τ) ReceiveBuffer := ⟨buffer, fun b s => { s with buffer := b }⟩

lemma bufferCell_lawful : (bufferCell : Cell (Station η τ) ReceiveBuffer).Lawful :=
  ⟨fun _ _ => rfl, fun _ => rfl, fun _ _ _ => rfl⟩

def completionsCell : Cell (Station η τ) ℕ := ⟨completions, fun n s => { s with completions := n }⟩

def phaseCell : Cell (Station η τ) Trap.Phase := ⟨phase, fun p s => { s with phase := p }⟩

/-- Something happened that the board came out of. -/
def saw (s : Station η τ) (board : Board) (h : Happening η) : Station η τ :=
  { s with board, trace := s.trace ++ [h] }

@[simp] lemma saw_board (s : Station η τ) (board : Board) (h : Happening η) :
    (s.saw board h).board = board := rfl
@[simp] lemma saw_trace (s : Station η τ) (board : Board) (h : Happening η) :
    (s.saw board h).trace = s.trace ++ [h] := rfl
@[simp] lemma saw_buffer (s : Station η τ) (board : Board) (h : Happening η) :
    (s.saw board h).buffer = s.buffer := rfl
@[simp] lemma saw_rx (s : Station η τ) (board : Board) (h : Happening η) (link : Link) :
    (s.saw board h).rx link = (board.queues link).rx := rfl

/-- The loads and stores so far, in order. -/
def accesses (s : Station η τ) : List (Happening η) := s.trace.filter Happening.isAccess

@[simp] lemma accesses_saw_load (s : Station η τ) (board : Board) (a : ℕ) (w : Width) (v : Word) :
    (s.saw board (.load a w v)).accesses = s.accesses ++ [.load a w v] := List.filter_append ..

@[simp] lemma accesses_saw_store (s : Station η τ) (board : Board) (a : ℕ) (w : Width) (v : Word) :
    (s.saw board (.store a w v)).accesses = s.accesses ++ [.store a w v] := List.filter_append ..

def act (s : Station η τ) : Outside → Station η τ
  | .send link unit =>
    s.saw (s.board.peerSend link unit).2 (.sent link unit (s.board.peerSend link unit).1)
  | .take link n => { s with board := (s.board.peerDrain link n).2 }
  | .rewire link wire => { s with board := s.board.setWire link wire }
  | .request id =>
    match s.board.raise id with
    | .ok board => { s with board }
    | .error _ => s

lemma act_request (s : Station η τ) (id : Fin Source.count) :
    s.act (.request id) = { s with board := { s.board with arbiter :=
      { s.board.arbiter with raised := s.board.arbiter.raised ||| (1#64 <<< id.val) } } } := by
  have hraise : s.board.raise id = .ok { s.board with arbiter :=
      { s.board.arbiter with raised := s.board.arbiter.raised ||| (1#64 <<< id.val) } } := by
    rw [Board.raise, Arbiter.raise, if_pos id.isLt]
    rfl
  simp only [act, hraise]

/-- What happens outside before the next access. -/
def meanwhile (s : Station η τ) : Station η τ :=
  (s.schedule.headD []).foldl act { s with schedule := s.schedule.tail }

/-- What every act of the world outside keeps. -/
lemma meanwhile_of_act {R : Station η τ → Station η τ → Prop} [IsPreorder (Station η τ) R]
    (hact : ∀ s o, R s (s.act o)) (hnext : ∀ s, R s { s with schedule := s.schedule.tail })
    (s : Station η τ) : R s s.meanwhile := by
  have hrun : ∀ (acts : List Outside) (s : Station η τ), R s (acts.foldl act s) := by
    intro acts
    induction acts with
    | nil => exact fun s => refl_of R s
    | cons a rest ih => exact fun s => trans_of R (hact s a) (ih (s.act a))
  exact trans_of R (hnext s) (hrun _ _)

def load (address : ℕ) (w : Width) : Proc (Station η τ) Word := fun s =>
  match s.board.load address w with
  | .ok (v, board) => .ok v (s.saw board (.load address w v))
  | .error f => .error (.fault f) s

def store (address : ℕ) (w : Width) (v : Word) : Proc (Station η τ) Unit := fun s =>
  .ok () (s.saw (s.board.store address w v) (.store address w v))

/-- What drivers run on where any procedure may run before each of their accesses: records go to
`log`, and a wait lasts for `patience` rounds. -/
def among (between : Proc (Station η τ) Unit) (log : Log.Record → Proc (Station η τ) Unit)
    (patience : ℕ) : Platform (Station η τ) :=
  Platform.before { load, store, log, patience := fun _ => patience } between

/-- What drivers run on where the world outside acts as the schedule says. -/
def platform (log : Log.Record → Proc (Station η τ) Unit) (patience : ℕ) :
    Platform (Station η τ) := among (modify meanwhile) log patience

/-- The reception of a channel into the station's buffer. -/
def reception (p : Platform (Station η τ)) (link : Link) : Reception (Station η τ) :=
  ⟨link.channel p, bufferCell, completionsCell⟩

/-- External interrupts run the policy, and other classes are ignored. -/
def classes (p : Platform (Station η τ)) (table : SourceTable η)
    (serve : η → Word → Proc (Station η τ) Unit) : Trap.Class → Proc (Station η τ) Unit
  | .external => discard (SourceTable.process p (.fixed table) serve)
  | _ => pure ()

/-- An external interrupt, taken at the address. -/
def trap (p : Platform (Station η τ)) (table : SourceTable η)
    (serve : η → Word → Proc (Station η τ) Unit) (address : ℕ) :
    Proc (Station η τ) (Except Trap.Fatal ℕ) :=
  Trap.dispatch p phaseCell (classes p table serve) ⟨0x8000000b#32⟩ address

variable {between : Proc (Station η τ) Unit} {log : Log.Record → Proc (Station η τ) Unit}
  {patience : ℕ} {E : Halt → Prop} {s : Station η τ}

lemma ends_among_load (a : ℕ) (w : Width) {Q : Word → Station η τ → Prop} :
    ((among between log patience).load a w).Ends s Q E ↔
      between.Ends s (fun _ s' =>
        match s'.board.load a w with
        | .ok (v, board) => Q v (s'.saw board (.load a w v))
        | .error f => E (.fault f)) E := by
  show (between >>= fun _ => load a w : Proc _ _).Ends s Q E ↔ _
  rw [Proc.ends_bind]
  refine iff_of_eq (congrArg (between.Ends s · E) (funext₂ fun _ s' => ?_))
  unfold Proc.Ends load
  cases s'.board.load a w <;> rfl

lemma ends_among_store (a : ℕ) (w : Width) (v : Word) {Q : Unit → Station η τ → Prop} :
    ((among between log patience).store a w v).Ends s Q E ↔
      between.Ends s (fun _ s' =>
        Q () (s'.saw (s'.board.store a w v) (.store a w v))) E := by
  show (between >>= fun _ => store a w v : Proc _ _).Ends s Q E ↔ _
  rw [Proc.ends_bind]
  unfold store
  refine iff_of_eq (congrArg (between.Ends s · E) (funext₂ fun _ s' => ?_))
  unfold Proc.Ends
  rfl

lemma ends_load (a : ℕ) (w : Width) {Q : Word → Station η τ → Prop} :
    ((platform log patience).load a w).Ends s Q E ↔
      match s.meanwhile.board.load a w with
      | .ok (v, board) => Q v (s.meanwhile.saw board (.load a w v))
      | .error f => E (.fault f) := by
  rw [platform, ends_among_load, Proc.ends_modify]

lemma ends_store (a : ℕ) (w : Width) (v : Word) {Q : Unit → Station η τ → Prop} :
    ((platform log patience).store a w v).Ends s Q E ↔
      Q () (s.meanwhile.saw (s.meanwhile.board.store a w v) (.store a w v)) := by
  rw [platform, ends_among_store, Proc.ends_modify]

end Station

/-! ### Registers -/

namespace Registers

variable {σ : Type} (r : Registers σ)

lemma read_eq {o : ℕ} (h : r.base + o < addressLimit) :
    r.read o = r.platform.load (r.base + o) .word := by
  unfold read address
  rw [if_pos h, pure_bind]

lemma write_eq {o : ℕ} (h : r.base + o < addressLimit) (v : Word) :
    r.write o v = r.platform.store (r.base + o) .word v := by
  unfold write address
  rw [if_pos h, pure_bind]

end Registers

namespace Controller

variable {σ : Type} (p : Platform σ)

lemma base_add_lt {o : ℕ} (h : o < MemoryMap.blockSize) : MemoryMap.system + o < addressLimit := by
  simp only [MemoryMap.blockSize] at h
  simp only [MemoryMap.system, addressLimit, UInt64.size]
  omega

lemma read_eq {o : ℕ} (h : o < MemoryMap.blockSize) :
    (registers p).read o = p.load (MemoryMap.system + o) .word :=
  Registers.read_eq _ (base_add_lt h)

lemma write_eq {o : ℕ} (h : o < MemoryMap.blockSize) (v : Word) :
    (registers p).write o v = p.store (MemoryMap.system + o) .word v :=
  Registers.write_eq _ (base_add_lt h) v

lemma claim_eq : claim p = (do
    let id ← p.load claimAddress .word
    if id.toNat < Source.count then
      p.trace path 102 ("claim interrupt " ++ Text.decimal id.toNat)
      return some id
    else
      return none) := by
  rw [claim, read_eq _ (by decide)]
  rfl

lemma complete_eq (id : Word) : complete p id = (do
    p.trace path 110 ("complete interrupt " ++ Text.decimal id.toNat)
    p.store claimAddress .word id) := by
  rw [complete, write_eq _ (by decide)]
  rfl

lemma priority_lt {id : ℕ} (h : id < Source.count) :
    SystemRegister.priority + id * 4 < MemoryMap.blockSize := by
  simp only [SystemRegister.priority, MemoryMap.blockSize, Source.count] at h ⊢
  omega

lemma trigger_lt {id : ℕ} (h : id < Source.count) :
    SystemRegister.trigger + id * 4 < MemoryMap.blockSize := by
  simp only [SystemRegister.trigger, MemoryMap.blockSize, Source.count] at h ⊢
  omega

/-- The bits of the sources are in two words. -/
lemma word_lt {id : ℕ} (h : id < Source.count) : id / 32 < 2 := by
  simp only [Source.count] at h
  omega

lemma enable_lt {word : ℕ} (h : word < 2) :
    SystemRegister.enable + word * 4 < MemoryMap.blockSize := by
  simp only [SystemRegister.enable, MemoryMap.blockSize]
  omega

lemma enable_ne_claim (word : ℕ) : SystemRegister.enable + word * 4 ≠ SystemRegister.claim := by
  simp only [SystemRegister.enable, SystemRegister.claim]
  omega

end Controller

lemma Link.base_add_lt (link : Link) {o : ℕ} (h : o < MemoryMap.blockSize) :
    link.base + o < addressLimit := by
  simp only [MemoryMap.blockSize] at h
  cases link <;>
    simp only [Link.base, MemoryMap.uart, MemoryMap.spi0, MemoryMap.spi1, MemoryMap.i2c,
      addressLimit, UInt64.size] <;>
    omega

lemma Link.read_eq {σ : Type} (p : Platform σ) (link : Link) {o : ℕ}
    (h : o < MemoryMap.blockSize) :
    (link.channel p).regs.read o = p.load (link.base + o) .word :=
  Registers.read_eq _ (link.base_add_lt h)

lemma Link.write_eq {σ : Type} (p : Platform σ) (link : Link) {o : ℕ}
    (h : o < MemoryMap.blockSize) (v : Word) :
    (link.channel p).regs.write o v = p.store (link.base + o) .word v :=
  Registers.write_eq _ (link.base_add_lt h) v

/-- What a driver reads and writes beside the queues of a channel is plain memory. -/
lemma Link.read_plain (link : Link) {o : ℕ} (h : link.layout.Plain o) (patience : ℕ) (b : Board) :
    (link.channel (Board.platform patience)).regs.read o b = .ok (b.memory (link.base + o)) b := by
  rw [link.read_eq _ h.lt]
  exact Board.platform_load_of_ok (b.load_plain h .word)

lemma Link.write_plain (link : Link) {o : ℕ} (h : link.layout.Plain o) (v : Word) (patience : ℕ)
    (b : Board) :
    (link.channel (Board.platform patience)).regs.write o v b =
      .ok () (b.poke (link.base + o) v) := by
  rw [link.write_eq _ h.lt]
  exact congrArg (EStateM.Result.ok ()) (Board.store_plain h v)

lemma Link.rxLength_eq {σ : Type} (p : Platform σ) (link : Link) :
    (link.channel p).rxLength =
      p.load (link.base + (link.layout.rx + QueueRegister.length)) .word :=
  link.read_eq p (o := link.layout.rx + QueueRegister.length) (by cases link <;> decide)

lemma Link.readUnit_eq {σ : Type} (p : Platform σ) (link : Link) (w : Width) :
    (link.channel p).readUnit w = (do return w.cut (← p.load link.dataAddress .word)) := by
  rw [Channel.readUnit]
  exact congrArg (fun x => do return w.cut (← x)) (link.read_eq p link.data_lt)

/-! ### What the policy and the dispatcher keep -/

namespace Proc

variable {σ η : Type} {R : σ → σ → Prop} [IsPreorder σ R] {E : Halt → Prop} {p : Platform σ}

lemma keeps_process {table : Cell σ (SourceTable η)} {serve : η → Word → Proc σ Unit}
    (hang : E .hang)
    (hlog : ∀ r : Log.Record, r.site.path = SourceTable.path ∨ r.site.path = Controller.path →
      Keeps R E (p.log r))
    (hclaim : Keeps R E (p.load claimAddress .word))
    (hcomplete : ∀ v, Keeps R E (p.store claimAddress .word v))
    (hserve : ∀ h id, Keeps R E (serve h id)) :
    Keeps R E (SourceTable.process p table serve) := by
  refine keeps_iterate hang (fun claims => ?_) 0
  rw [Controller.claim_eq]
  refine Keeps.bind (hclaim.bind fun id => ?_) fun claimed => ?_
  · split
    · exact (hlog _ (.inr rfl)).bind fun _ => keeps_pure _
    · exact keeps_pure _
  · rcases claimed with _ | id
    · exact keeps_pure _
    · refine Keeps.bind ?_ fun _ => keeps_pure _
      unfold SourceTable.serveClaim
      rw [Controller.complete_eq]
      refine (hlog _ (.inl rfl)).bind fun _ => (keeps_read table).bind fun t => ?_
      have hend : Keeps R E (do
          p.trace SourceTable.path 87 ("finished interrupt " ++ Text.decimal id.toNat)
          p.trace Controller.path 110 ("complete interrupt " ++ Text.decimal id.toNat)
          p.store claimAddress .word id) :=
        (hlog _ (.inl rfl)).bind fun _ => (hlog _ (.inr rfl)).bind fun _ => hcomplete id
      split
      · exact (hserve _ id).bind fun _ => hend
      · exact (hlog _ (.inl rfl)).bind fun _ => hend

lemma keeps_dispatch {phase : Cell σ Trap.Phase} {handle : Trap.Class → Proc σ Unit}
    (hlog : ∀ r : Log.Record, r.site.path = Trap.path → Keeps R E (p.log r))
    (hphase : ∀ f, Keeps R E (phase.update f))
    (hhandle : ∀ c, Keeps R E (handle c)) (cause : Trap.Cause) (address : ℕ) :
    Keeps R E (Trap.dispatch p phase handle cause address) := by
  have hwrite : ∀ f, Keeps R E (phase.write f) := fun f => hphase fun _ => f
  refine (keeps_read phase).bind fun previous => ?_
  split
  · -- an exception, or any trap after one
    exact (hwrite _).bind fun _ => (hlog _ rfl).bind fun _ => keeps_pure _
  · split
    · -- an interrupt that belongs to no class
      exact (hlog _ rfl).bind fun _ => keeps_pure _
    · next c _ =>
      have hend : Keeps R E (do
          p.trace Trap.path 186 ("dispatch " ++ cause.text)
          handle c
          phase.update (·.leave previous)
          return (.ok address : Except Trap.Fatal ℕ)) :=
        (hlog _ rfl).bind fun _ => (hhandle c).bind fun _ => (hphase _).bind fun _ => keeps_pure _
      split
      · exact (hwrite _).bind fun _ => hend
      · exact (hlog _ rfl).bind fun _ => hend

end Proc

end BoardSupport
