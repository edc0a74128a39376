import BoardSupport.Proofs.Station

/-!
Channels do not interfere.

A place in a state confines a procedure that reads and writes that place alone. What is confined to
one of two places that have nothing in common can be done before or after what is confined to the
other. Every call on a channel, of its driver or of its peer, is confined to the queues of that
channel.
-/

namespace BoardSupport

/-! ### Places and procedures confined to them -/

namespace Cell

variable {σ α β γ δ : Type} {c : Cell σ α} {d : Cell σ β}

/-- The places have nothing in common. -/
structure Apart (c : Cell σ α) (d : Cell σ β) : Prop where
  get_left : ∀ b s, c.get (d.put b s) = c.get s
  get_right : ∀ a s, d.get (c.put a s) = d.get s
  put_comm : ∀ a b s, c.put a (d.put b s) = d.put b (c.put a s)

lemma run_of_ok {x : Proc α γ} {s : σ} {r : γ} {a : α} (h : x (c.get s) = .ok r a) :
    c.run x s = .ok r (c.put a s) := by
  unfold run
  rw [h]

lemma run_of_error {x : Proc α γ} {s : σ} {e : Halt} {a : α} (h : x (c.get s) = .error e a) :
    c.run x s = .error e (c.put a s) := by
  unfold run
  rw [h]

lemma run_eq_ok_iff {x : Proc α γ} {s s' : σ} {r : γ} :
    c.run x s = .ok r s' ↔ ∃ a, x (c.get s) = .ok r a ∧ s' = c.put a s := by
  constructor
  · intro h
    cases hx : x (c.get s) with
    | ok r₁ a =>
      rw [run_of_ok hx] at h
      cases h
      exact ⟨a, rfl, rfl⟩
    | error e a =>
      rw [run_of_error hx] at h
      cases h
  · rintro ⟨a, h, rfl⟩
    exact run_of_ok h

/-- The procedure reads and writes the place alone. -/
def Confines (c : Cell σ α) (x : Proc σ γ) : Prop := ∃ y : Proc α γ, x = c.run y

variable (hc : c.Lawful)

include hc

lemma Lawful.confines_pure (r : γ) : c.Confines (pure r) := by
  refine ⟨pure r, ?_⟩
  funext s
  show EStateM.Result.ok r s = .ok r (c.put (c.get s) s)
  rw [hc.put_get]

lemma Lawful.run_bind (x : Proc α γ) (f : γ → Proc α δ) :
    c.run (x >>= f) = c.run x >>= fun r => c.run (f r) := by
  funext s
  show c.run (EStateM.bind x f) s = EStateM.bind (c.run x) (fun r => c.run (f r)) s
  cases hx : x (c.get s) with
  | ok r a =>
    simp only [run, EStateM.bind, hx, hc.get_put]
    cases f r a <;> simp only [hc.put_put]
  | error e a => simp only [run, EStateM.bind, hx]

lemma Lawful.confines_bind {x : Proc σ γ} {f : γ → Proc σ δ} (hx : c.Confines x)
    (hf : ∀ r, c.Confines (f r)) : c.Confines (x >>= f) := by
  obtain ⟨y, rfl⟩ := hx
  choose g hg using hf
  refine ⟨y >>= g, ?_⟩
  rw [hc.run_bind, funext hg]

lemma confines_hang : c.Confines (Proc.hang : Proc σ γ) := by
  refine ⟨Proc.hang, ?_⟩
  funext s
  show EStateM.Result.error Halt.hang s = .error .hang (c.put (c.get s) s)
  rw [hc.put_get]

lemma Lawful.confines_rounds {step : δ → Proc σ (δ ⊕ γ)} (hstep : ∀ r, c.Confines (step r))
    (n : ℕ) (r : δ) : c.Confines (Platform.rounds step n r) := by
  induction n generalizing r with
  | zero => exact confines_hang hc
  | succ n ih =>
    refine hc.confines_bind (hstep r) fun next => ?_
    cases next with
    | inl r => exact ih r
    | inr a => exact hc.confines_pure a

omit hc

lemma Apart.symm (h : c.Apart d) : d.Apart c :=
  ⟨h.get_right, h.get_left, fun a b s => (h.put_comm b a s).symm⟩

variable {x : Proc α γ} {y : Proc β δ} {s s₁ s₂ s' : σ} {r : γ} {t : δ}

/-- Two procedures that return from one state return one after the other, and either order leads to
the same state. -/
lemma Apart.run_after (h : c.Apart d) (hx : c.run x s = .ok r s₁) (hy : d.run y s = .ok t s₂) :
    ∃ s', d.run y s₁ = .ok t s' ∧ c.run x s₂ = .ok r s' := by
  obtain ⟨a, ha, rfl⟩ := run_eq_ok_iff.1 hx
  obtain ⟨b, hb, rfl⟩ := run_eq_ok_iff.1 hy
  refine ⟨d.put b (c.put a s), ?_, ?_⟩
  · rw [← h.get_right a s] at hb
    exact run_of_ok hb
  · rw [← h.get_left b s] at ha
    rw [← h.put_comm]
    exact run_of_ok ha

/-- The second of two procedures could as well have been the first. -/
lemma Apart.run_before (h : c.Apart d) (hx : c.run x s = .ok r s₁) (hy : d.run y s₁ = .ok t s') :
    ∃ s₂, d.run y s = .ok t s₂ ∧ c.run x s₂ = .ok r s' := by
  obtain ⟨a, ha, rfl⟩ := run_eq_ok_iff.1 hx
  obtain ⟨b, hb, rfl⟩ := run_eq_ok_iff.1 hy
  rw [h.get_right] at hb
  refine ⟨d.put b s, run_of_ok hb, ?_⟩
  rw [← h.get_left b s] at ha
  rw [← h.put_comm]
  exact run_of_ok ha

end Cell

/-! ### The queues of a channel -/

namespace Board

/-- The queues of a channel, as a place in the board. -/
def queuesCell (link : Link) : Cell Board Queues := ⟨(·.queues link), fun q b => b.setQueues q link⟩

lemma queuesCell_lawful (link : Link) : (queuesCell link).Lawful where
  get_put q b := queues_setQueues b q link
  put_get b := by cases link <;> rfl
  put_put q q' b := by cases link <;> rfl

lemma setQueues_queues (b : Board) (link : Link) : b.setQueues (b.queues link) link = b :=
  (queuesCell_lawful link).put_get b

lemma setQueues_setQueues (b : Board) (q q' : Queues) (link : Link) :
    (b.setQueues q link).setQueues q' link = b.setQueues q' link :=
  (queuesCell_lawful link).put_put q q' b

lemma queuesCell_apart {l m : Link} (h : l ≠ m) : (queuesCell l).Apart (queuesCell m) where
  get_left q b := queues_setQueues_of_ne b q h
  get_right q b := queues_setQueues_of_ne b q h.symm
  put_comm q q' b := by cases l <;> cases m <;> first | rfl | exact absurd rfl h

/-- All but the queues of the channel is as it was. -/
structure Beside (link : Link) (b b' : Board) : Prop where
  queues : ∀ l, l ≠ link → b'.queues l = b.queues l
  arbiter : b'.arbiter = b.arbiter
  console : b'.console = b.console
  scratchWords : b'.scratchWords = b.scratchWords
  memory : b'.memory = b.memory

lemma beside_setQueues (b : Board) (q : Queues) (link : Link) :
    Beside link b (b.setQueues q link) where
  queues _ hl := queues_setQueues_of_ne b q hl
  arbiter := setQueues_arbiter b q link
  console := by cases link <;> rfl
  scratchWords := by cases link <;> rfl
  memory := by cases link <;> rfl

variable {link : Link} {patience : ℕ}

/-- A register that is read without effect. -/
lemma confines_read {o : ℕ} (h : o ∈ link.layout.readable) :
    (queuesCell link).Confines ((link.channel (platform patience)).regs.read o) := by
  have hlaw := queuesCell_lawful link
  obtain ⟨ho, hne⟩ := link.readable_lt o h
  refine ⟨do return ((← get).read? link.layout o).getD 0#32, ?_⟩
  rw [link.read_eq _ ho]
  funext b
  obtain ⟨v, hv⟩ := Option.isSome_iff_exists.1 (Queues.isSome_read?_iff.2 h)
  have hload : b.load (link.base + o) .word = .ok (v, b) := by
    rw [load_register b link .word ho hne, hv]
    rfl
  have hget : (do return ((← get).read? link.layout o).getD 0#32 : Proc Queues Word)
      ((queuesCell link).get b) = .ok v ((queuesCell link).get b) := by
    show EStateM.Result.ok (((b.queues link).read? link.layout o).getD 0#32) _ = _
    rw [hv]
    rfl
  calc (platform patience).load (link.base + o) .word b
      = .ok v b := platform_load_of_ok hload
    _ = .ok v ((queuesCell link).put ((queuesCell link).get b) b) := by rw [hlaw.put_get]
    _ = (queuesCell link).run _ b := (Cell.run_of_ok hget).symm

/-- What reading the receive data register does to the queues. -/
def takeUnit (link : Link) : Proc Queues Word := fun q =>
  match q.take? with
  | some (unit, q') => .ok unit q'
  | none => .error (.fault (.emptyQueueRead link.dataAddress)) q

lemma confines_readUnit (w : Width) :
    (queuesCell link).Confines ((link.channel (platform patience)).readUnit w) := by
  refine (queuesCell_lawful link).confines_bind ⟨takeUnit link, ?_⟩
    fun v => (queuesCell_lawful link).confines_pure _
  refine (link.read_eq _ link.data_lt).trans (funext fun b => ?_)
  have hload := load_data b link .word
  cases htake : (b.queues link).take? with
  | some r =>
    rw [htake] at hload
    have hunit : takeUnit link ((queuesCell link).get b) = .ok r.1 r.2 := by
      simp only [takeUnit, queuesCell, htake]
    exact (platform_load_of_ok hload).trans (Cell.run_of_ok hunit).symm
  | none =>
    -- the fault leaves the queues, and so the board, as they were
    rw [htake] at hload
    have hunit : takeUnit link ((queuesCell link).get b) =
        .error (.fault (.emptyQueueRead link.dataAddress)) (b.queues link) := by
      simp only [takeUnit, queuesCell, htake]
    calc (platform patience).load link.dataAddress .word b
        = .error (.fault (.emptyQueueRead link.dataAddress)) b := platform_load_of_error hload
      _ = .error (.fault (.emptyQueueRead link.dataAddress))
          ((queuesCell link).put ((queuesCell link).get b) b) := by
          rw [(queuesCell_lawful link).put_get]
      _ = (queuesCell link).run (takeUnit link) b := (Cell.run_of_error hunit).symm

/-- A register that takes what is written to it. -/
lemma confines_write {o : ℕ} (h : o ∈ link.layout.writable) (v : Word) :
    (queuesCell link).Confines ((link.channel (platform patience)).regs.write o v) := by
  have ho : o < MemoryMap.blockSize := (link.writable_lt o h).trans (by decide)
  refine ⟨modify fun q => (q.write? link.layout o v).getD q, ?_⟩
  rw [link.write_eq _ ho]
  funext b
  obtain ⟨q, hq⟩ := Option.isSome_iff_exists.1 (Queues.isSome_write?_iff.2 h)
  have hmodify : (modify fun q => (q.write? link.layout o v).getD q : Proc Queues Unit)
      ((queuesCell link).get b) = .ok () q := by
    show EStateM.Result.ok () (((b.queues link).write? link.layout o v).getD (b.queues link)) = _
    rw [hq]
    rfl
  calc (platform patience).store (link.base + o) .word v b
      = .ok () (b.setQueues q link) := congrArg (EStateM.Result.ok ()) (store_channel ho hq)
    _ = (queuesCell link).run _ b := (Cell.run_of_ok hmodify).symm

end Board

/-! ### Calls -/

/-- A call on a channel, of its driver or of its peer, by what it returns. -/
inductive Link.Call : Type → Type where
  | send (w : Width) (units : List Word) : Call Unit
  | recv (w : Width) (n : ℕ) : Call (List Word)
  | trySend (w : Width) (unit : Word) : Call Bool
  | tryRecv (w : Width) : Call (Option Word)
  | clearTx : Call Unit
  | clearRx : Call Unit
  | setTxIrq (enabled : Bool) (threshold : Word) : Call Unit
  | setRxIrq (enabled : Bool) (threshold : Word) : Call Unit
  | txLength : Call Word
  | rxLength : Call Word
  | txCapacity : Call Word
  | rxCapacity : Call Word
  | enabledIrqs : Call Word
  | pendingIrqs : Call Word
  | peerSend (unit : Word) : Call Bool
  | peerDrain (n : ℕ) : Call ℕ
  | setWire (wire : Wire) : Call Unit

namespace Link.Call

/-- The call on a board with nothing else on the machine. A wait that does not end hangs, and takes
`patience` rounds to do so. -/
def perform (patience : ℕ) (link : Link) : {α : Type} → Call α → Proc Board α
  | _, .send w units => (link.channel (Board.platform patience)).send w units
  | _, .recv w n => (link.channel (Board.platform patience)).recv w n
  | _, .trySend w unit => (link.channel (Board.platform patience)).trySend w unit
  | _, .tryRecv w => (link.channel (Board.platform patience)).tryRecv w
  | _, .clearTx => (link.channel (Board.platform patience)).clearTx
  | _, .clearRx => (link.channel (Board.platform patience)).clearRx
  | _, .setTxIrq enabled t => (link.channel (Board.platform patience)).setTxIrq enabled t
  | _, .setRxIrq enabled t => (link.channel (Board.platform patience)).setRxIrq enabled t
  | _, .txLength => (link.channel (Board.platform patience)).txLength
  | _, .rxLength => (link.channel (Board.platform patience)).rxLength
  | _, .txCapacity => (link.channel (Board.platform patience)).txCapacity
  | _, .rxCapacity => (link.channel (Board.platform patience)).rxCapacity
  | _, .enabledIrqs => (link.channel (Board.platform patience)).enabledIrqs
  | _, .pendingIrqs => (link.channel (Board.platform patience)).pendingIrqs
  | _, .peerSend unit => fun b => .ok (b.peerSend link unit).1 (b.peerSend link unit).2
  | _, .peerDrain n => fun b => .ok (b.peerDrain link n).1 (b.peerDrain link n).2
  | _, .setWire wire => fun b => .ok () (b.setWire link wire)

end Link.Call

namespace Board

variable {link : Link} {patience : ℕ}

lemma confines_txLength :
    (queuesCell link).Confines (link.channel (platform patience)).txLength :=
  confines_read (by simp [Layout.readable, Link.channel])

lemma confines_rxLength :
    (queuesCell link).Confines (link.channel (platform patience)).rxLength :=
  confines_read (by simp [Layout.readable, Link.channel])

lemma confines_txCapacity :
    (queuesCell link).Confines (link.channel (platform patience)).txCapacity :=
  confines_read (by simp [Layout.readable, Link.channel])

lemma confines_rxCapacity :
    (queuesCell link).Confines (link.channel (platform patience)).rxCapacity :=
  confines_read (by simp [Layout.readable, Link.channel])

lemma confines_enabledIrqs :
    (queuesCell link).Confines (link.channel (platform patience)).enabledIrqs :=
  confines_read (by simp [Layout.readable, Link.channel])

lemma confines_pendingIrqs :
    (queuesCell link).Confines (link.channel (platform patience)).pendingIrqs :=
  confines_read (by simp [Layout.readable, Link.channel])

lemma confines_writeUnit (w : Width) (unit : Word) :
    (queuesCell link).Confines ((link.channel (platform patience)).writeUnit w unit) :=
  confines_write (by simp [Layout.writable, Link.channel]) _

lemma confines_await {condition : Proc Board Bool} (h : (queuesCell link).Confines condition) :
    (queuesCell link).Confines ((platform patience).await condition) :=
  have hstep : (queuesCell link).Confines
      (do return if ← condition then .inr () else .inl () : Proc Board (Unit ⊕ Unit)) :=
    (queuesCell_lawful link).confines_bind h fun _ => (queuesCell_lawful link).confines_pure _
  (queuesCell_lawful link).confines_rounds (fun _ => hstep) (patience + 1) ()

lemma confines_sendEach (w : Width) (capacity : Word) (units : List Word) :
    (queuesCell link).Confines
      ((link.channel (platform patience)).sendEach w capacity units) := by
  have hlaw := queuesCell_lawful link
  induction units with
  | nil => exact hlaw.confines_pure ()
  | cons unit rest ih =>
    refine hlaw.confines_bind (confines_await ?_) fun _ => ?_
    · exact hlaw.confines_bind confines_txLength fun _ => hlaw.confines_pure _
    · exact hlaw.confines_bind (confines_writeUnit w unit) fun _ => ih

lemma confines_recv (w : Width) (n : ℕ) :
    (queuesCell link).Confines ((link.channel (platform patience)).recv w n) := by
  have hlaw := queuesCell_lawful link
  induction n with
  | zero => exact hlaw.confines_pure []
  | succ n ih =>
    refine hlaw.confines_bind (confines_await ?_) fun _ => ?_
    · exact hlaw.confines_bind confines_rxLength fun _ => hlaw.confines_pure _
    · refine hlaw.confines_bind (confines_readUnit w) fun unit => ?_
      exact hlaw.confines_bind ih fun rest => hlaw.confines_pure _

lemma confines_setEnable (f : Field) (enabled : Bool) :
    (queuesCell link).Confines ((link.channel (platform patience)).setEnable f enabled) := by
  have hlaw := queuesCell_lawful link
  refine hlaw.confines_bind confines_enabledIrqs fun old => ?_
  refine hlaw.confines_bind (hlaw.confines_pure _) fun new => ?_
  exact confines_write (by simp [Layout.writable, Link.channel]) new

/-- A call on a channel is confined to the queues of the channel. -/
lemma confines_perform {α : Type} (f : Link.Call α) :
    (queuesCell link).Confines (f.perform patience link) := by
  have hlaw := queuesCell_lawful link
  cases f with
  | send w units =>
    exact hlaw.confines_bind confines_txCapacity fun capacity => confines_sendEach w capacity units
  | recv w n => exact confines_recv w n
  | trySend w unit =>
    -- the looks and the write are at the registers of the same link
    refine hlaw.confines_bind confines_txLength fun length => ?_
    refine hlaw.confines_bind confines_txCapacity fun capacity => ?_
    split
    · exact hlaw.confines_bind (confines_writeUnit w unit) fun _ => hlaw.confines_pure _
    · exact hlaw.confines_pure _
  | tryRecv w =>
    refine hlaw.confines_bind confines_rxLength fun length => ?_
    split
    · exact hlaw.confines_bind (confines_readUnit w) fun _ => hlaw.confines_pure _
    · exact hlaw.confines_pure _
  | clearTx =>
    exact confines_write (by simp [Layout.writable, Link.channel]) _
  | clearRx =>
    exact confines_write (by simp [Layout.writable, Link.channel]) _
  | setTxIrq enabled t =>
    cases enabled with
    | false => exact confines_setEnable _ _
    | true =>
      refine hlaw.confines_bind confines_txCapacity fun capacity => ?_
      refine hlaw.confines_bind (hlaw.confines_pure ()) fun _ => ?_
      refine hlaw.confines_bind ?_ fun _ => confines_setEnable _ _
      exact confines_write (by simp [Layout.writable, Link.channel]) _
  | setRxIrq enabled t =>
    cases enabled with
    | false => exact confines_setEnable _ _
    | true =>
      refine hlaw.confines_bind confines_rxCapacity fun capacity => ?_
      refine hlaw.confines_bind (hlaw.confines_pure ()) fun _ => ?_
      refine hlaw.confines_bind ?_ fun _ => confines_setEnable _ _
      exact confines_write (by simp [Layout.writable, Link.channel]) _
  | txLength => exact confines_txLength
  | rxLength => exact confines_rxLength
  | txCapacity => exact confines_txCapacity
  | rxCapacity => exact confines_rxCapacity
  | enabledIrqs => exact confines_enabledIrqs
  | pendingIrqs => exact confines_pendingIrqs
  | peerSend unit =>
    exact ⟨fun q => .ok (decide (q.rx.length < Queues.capacity)) (q.arrive unit), rfl⟩
  | peerDrain n => exact ⟨fun q => .ok (min n q.tx.length) (q.drain n), rfl⟩
  | setWire wire => exact ⟨fun q => .ok () { q with wire }, rfl⟩

end Board

namespace Link.Call

/-- **Channels do not interfere.** Two calls on different channels give the same results and lead
to the same board, whichever comes first: if one order comes to an end, then so does the other, and
one of them does if each call comes to an end alone. A call changes nothing on the board but the
queues of its channel. -/
theorem calls_commute {α β : Type} {l m : Link} (hlm : l ≠ m) (f : Call α) (g : Call β) (n k : ℕ)
    (b : Board) :
    (∀ x y b', (∃ b₁, f.perform n l b = .ok x b₁ ∧ g.perform k m b₁ = .ok y b') ↔
      ∃ b₂, g.perform k m b = .ok y b₂ ∧ f.perform n l b₂ = .ok x b') ∧
    (∀ x y b₁ b₂, f.perform n l b = .ok x b₁ → g.perform k m b = .ok y b₂ →
      ∃ b', g.perform k m b₁ = .ok y b' ∧ f.perform n l b₂ = .ok x b') ∧
    ∀ x b₁, f.perform n l b = .ok x b₁ → Board.Beside l b b₁ := by
  have hapart := Board.queuesCell_apart hlm
  obtain ⟨y, hf⟩ : (Board.queuesCell l).Confines (f.perform n l) := Board.confines_perform f
  obtain ⟨z, hg⟩ : (Board.queuesCell m).Confines (g.perform k m) := Board.confines_perform g
  rw [hf, hg]
  refine ⟨fun r t b' => ⟨?_, ?_⟩, fun r t b₁ b₂ hfb hgb => hapart.run_after hfb hgb,
    fun r b₁ hfb => ?_⟩
  · rintro ⟨b₁, hfb, hgb⟩
    exact hapart.run_before hfb hgb
  · rintro ⟨b₂, hgb, hfb⟩
    exact hapart.symm.run_before hgb hfb
  · obtain ⟨q, -, rfl⟩ := Cell.run_eq_ok_iff.1 hfb
    exact Board.beside_setQueues b q l

/-- The uart has received three units, and the line of the spi leads back to it. -/
def twoLines : Board where
  uart := { rx := [0x141#32, 0x42#32, 0x43#32] }
  spi0 := { wire := .loopback }

theorem calls_commute_twoLines : Link.uart ≠ .spi0 ∧ ∃ b',
    (∃ b₁, (recv .byte 2).perform 0 .uart twoLines = .ok [0x41#32, 0x42#32] b₁ ∧
      (send .half [0x15555#32, 6#32]).perform 0 .spi0 b₁ = .ok () b') ∧
    (∃ b₂, (send .half [0x15555#32, 6#32]).perform 0 .spi0 twoLines = .ok () b₂ ∧
      (recv .byte 2).perform 0 .uart b₂ = .ok [0x41#32, 0x42#32] b') ∧
    (b'.queues .spi0).rx = [0x5555#32, 6#32] ∧ (b'.queues .uart).rx = [0x43#32] := by
  have hne : Link.uart ≠ .spi0 := by decide
  have hrecv : (recv .byte 2).perform 0 .uart twoLines =
      .ok [0x41#32, 0x42#32] { twoLines with uart := { rx := [0x43#32] } } := rfl
  have hsend : (send .half [0x15555#32, 6#32]).perform 0 .spi0 twoLines =
      .ok () { twoLines with
        spi0 := { wire := .loopback, rx := [0x5555#32, 6#32], transmitted := [0x5555#32, 6#32] } } :=
    rfl
  obtain ⟨-, hboth, -⟩ := calls_commute hne (recv .byte 2) (send .half [0x15555#32, 6#32]) 0 0
    twoLines
  obtain ⟨b', hgb, hfb⟩ := hboth _ _ _ _ hrecv hsend
  refine ⟨hne, b', ⟨_, hrecv, hgb⟩, ⟨_, hsend, hfb⟩, ?_⟩
  cases hgb
  exact ⟨rfl, rfl⟩

end Link.Call

end BoardSupport
