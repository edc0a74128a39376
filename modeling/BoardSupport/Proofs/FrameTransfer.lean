import BoardSupport.Peripheral.I2c
import BoardSupport.Proofs.BlockingSend

/-!
A transfer of the I2C controller is queued before it is started.

The controller shifts frames out once it is started, and not before. The driver queues all frames of
a transfer and starts it then. So frames that fit into the transmit queue get started, after as many
accesses as there are frames to look for space and to write. One frame more, and the driver waits
for space that nobody makes: the transfer is never started.
-/

namespace BoardSupport

/-- A send in two parts. -/
lemma Channel.sendEach_append {σ : Type} (c : Channel σ) (w : Width) (capacity : Word)
    (l l' : List Word) : c.sendEach w capacity (l ++ l') = (do
      c.sendEach w capacity l
      c.sendEach w capacity l') := by
  induction l with
  | nil => rfl
  | cons unit rest ih =>
    rw [List.cons_append, sendEach, sendEach, ih]
    simp only [bind_assoc]

namespace I2c

open Station

variable {η τ : Type}

/-! ### What goes on before the start -/

def startAddress : ℕ := MemoryMap.i2c + startRegister

/-- Whether the start register was written. -/
def started (accesses : List (Happening η)) : Bool :=
  accesses.any fun
    | .store a _ _ => a == startAddress
    | _ => false

lemma started_append (l l' : List (Happening η)) :
    started (l ++ l') = (started l || started l') := List.any_append

/-- Nothing was accessed, and the units in the transmit queue wait there as before. -/
structure Undrained (s s' : Station η τ) : Prop where
  accesses : s'.accesses = s.accesses
  tx : (s'.board.queues .i2c).tx = (s.board.queues .i2c).tx
  wire : (s'.board.queues .i2c).wire = (s.board.queues .i2c).wire

/-- A procedure that leaves the transmit queue alone until the controller is started. -/
def AwaitsStart (x : Proc (Station η τ) Unit) : Prop :=
  ∀ s, started s.accesses = false → x.Ends s (fun _ s' => Undrained s s') fun _ => False

/-- The units wait, the accesses were made, and the controller is not started. -/
structure Waits (units : List Word) (made : List (Happening η)) (s : Station η τ) : Prop where
  tx : (s.board.queues .i2c).tx = units
  accesses : s.accesses = made
  wire : (s.board.queues .i2c).wire = .hold
  not_started : started made = false

/-! ### The accesses of a transfer -/

def capacityLook : Happening η :=
  .load (Link.i2c.base + (Link.i2c.layout.tx + QueueRegister.capacity)) .word
    (BitVec.ofNat 32 Queues.capacity)

/-- A look at the length of the transmit queue, in which `n` units wait. -/
def lengthLook (n : ℕ) : Happening η :=
  .load (Link.i2c.base + (Link.i2c.layout.tx + QueueRegister.length)) .word (BitVec.ofNat 32 n)

def unitWrite (unit : Word) : Happening η :=
  .store (Link.i2c.base + (Link.i2c.layout.tx + QueueRegister.data)) .word unit

/-- Unit after unit is queued, where `n` wait at first. -/
def queueing : ℕ → List Word → List (Happening η)
  | _, [] => []
  | n, unit :: rest => lengthLook n :: unitWrite unit :: queueing (n + 1) rest

/-- The transfer of so many frames is started. -/
def starting (n : ℕ) : List (Happening η) :=
  [.store (MemoryMap.i2c + framesRegister) .word (BitVec.ofNat 32 n),
    .store startAddress .word 1#32]

lemma length_queueing (n : ℕ) (units : List Word) :
    (queueing n units : List (Happening η)).length = 2 * units.length := by
  induction units generalizing n with
  | nil => rfl
  | cons unit rest ih =>
    rw [queueing, List.length_cons, List.length_cons, ih, List.length_cons]
    ring

section

variable {meanwhile : Proc (Station η τ) Unit} {log : Log.Record → Proc (Station η τ) Unit}
  {patience : ℕ} (hmeanwhile : AwaitsStart meanwhile) {s : Station η τ}
  {units : List Word} {made : List (Happening η)}

lemma Waits.ends {x : Proc (Station η τ) Unit} (hs : Waits units made s) (hx : AwaitsStart x) :
    x.Ends s (fun _ s' => Waits units made s') fun _ => False := by
  refine (hx s (by rw [hs.accesses, hs.not_started])).imp fun _ s' h => ?_
  exact ⟨h.tx.trans hs.tx, h.accesses.trans hs.accesses, h.wire.trans hs.wire, hs.not_started⟩

include hmeanwhile

/-- A register other than the receive data register is read. -/
lemma ends_look (hs : Waits units made s) {o : ℕ} (ho : o < MemoryMap.blockSize)
    (hne : o ≠ Link.i2c.layout.rx + QueueRegister.data) {f : List Word → Word}
    (hf : ∀ q : Queues, q.read? Link.i2c.layout o = some (f q.tx)) :
    ((Link.i2c.channel (among meanwhile log patience)).regs.read o).Ends s
      (fun v s' => v = f units ∧ Waits units (made ++ [.load (Link.i2c.base + o) .word v]) s')
      fun _ => False := by
  rw [Link.read_eq _ _ ho, ends_among_load]
  refine (hs.ends hmeanwhile).imp fun _ s₁ h₁ => ?_
  rw [Board.load_register _ _ _ ho hne, hf]
  refine ⟨congrArg f h₁.tx, h₁.tx, ?_, h₁.wire, ?_⟩
  · rw [accesses_saw_load, h₁.accesses]
  · rw [started_append, h₁.not_started]
    rfl

lemma ends_txLength (hs : Waits units made s) :
    (Link.i2c.channel (among meanwhile log patience)).txLength.Ends s
      (fun v s' => v = BitVec.ofNat 32 units.length ∧
        Waits units (made ++ [lengthLook units.length]) s') fun _ => False := by
  refine (ends_look hmeanwhile hs (o := Link.i2c.layout.tx + QueueRegister.length)
    (f := fun tx => BitVec.ofNat 32 tx.length) (by decide) (by decide) fun _ => rfl).imp ?_
  rintro _ s' ⟨rfl, h⟩
  exact ⟨rfl, h⟩

/-- A unit is queued where there is space. -/
lemma ends_writeUnit (hs : Waits units made s) (hspace : units.length ≠ Queues.capacity)
    (w : Width) (unit : Word) :
    ((Link.i2c.channel (among meanwhile log patience)).writeUnit w unit).Ends s
      (fun _ s' => Waits (units ++ [w.cut unit]) (made ++ [unitWrite (w.cut unit)]) s')
      fun _ => False := by
  have heq : (Link.i2c.channel (among meanwhile log patience)).writeUnit w unit =
      (among meanwhile log patience).store
        (Link.i2c.base + (Link.i2c.layout.tx + QueueRegister.data)) .word (w.cut unit) :=
    Link.i2c.write_eq (o := Link.i2c.layout.tx + QueueRegister.data) _ (by decide) _
  rw [heq, ends_among_store]
  refine (hs.ends hmeanwhile).imp fun _ s₁ h₁ => ?_
  have hqueues : ((s₁.board.store (Link.i2c.base + (Link.i2c.layout.tx + QueueRegister.data)) .word
      (w.cut unit)).queues .i2c) = { s₁.board.queues .i2c with tx := units ++ [w.cut unit] } := by
    have hstore : s₁.board.store (Link.i2c.base + (Link.i2c.layout.tx + QueueRegister.data)) .word
        (w.cut unit) = s₁.board.setQueues ((s₁.board.queues .i2c).transmit (w.cut unit)) .i2c :=
      Board.store_channel (by decide) rfl
    rw [hstore, Board.queues_setQueues, Queues.transmit_hold h₁.wire (by rw [h₁.tx]; exact hspace),
      h₁.tx]
  refine ⟨?_, ?_, ?_, ?_⟩
  · rw [saw_board, hqueues]
  · rw [accesses_saw_store, h₁.accesses]
    rfl
  · rw [saw_board, hqueues]
    exact h₁.wire
  · rw [started_append, h₁.not_started]
    rfl

/-- A register beside the queues is written, after which the controller may be started. -/
lemma ends_writeControl (hs : Waits units made s) {o : ℕ} (ho : Link.i2c.layout.Plain o)
    (v : Word) :
    ((registers (among meanwhile log patience)).write o v).Ends s
      (fun _ s' => (s'.board.queues .i2c).tx = units ∧ (s'.board.queues .i2c).wire = .hold ∧
        s'.accesses = made ++ [.store (MemoryMap.i2c + o) .word v]) fun _ => False := by
  have heq : (registers (among meanwhile log patience)).write o v =
      (among meanwhile log patience).store (Link.i2c.base + o) .word v :=
    Link.i2c.write_eq _ ho.lt v
  rw [heq, ends_among_store]
  refine (hs.ends hmeanwhile).imp fun _ s₁ h₁ => ?_
  have hqueues : (s₁.board.store (Link.i2c.base + o) .word v).queues .i2c =
      s₁.board.queues .i2c := by
    rw [Board.store_plain ho, Board.queues_poke]
  refine ⟨?_, ?_, ?_⟩
  · rw [saw_board, hqueues, h₁.tx]
  · rw [saw_board, hqueues, h₁.wire]
  · rw [accesses_saw_store, h₁.accesses]
    rfl

/-! ### Waiting for space -/

/-- What the driver looks for before it writes a unit. -/
lemma ends_hasSpace (hs : Waits units made s) :
    (do return (← (Link.i2c.channel (among meanwhile log patience)).txLength) !=
        BitVec.ofNat 32 Queues.capacity : Proc (Station η τ) Bool).Ends s
      (fun r s' => r = (BitVec.ofNat 32 units.length != BitVec.ofNat 32 Queues.capacity) ∧
        Waits units (made ++ [lengthLook units.length]) s') fun _ => False := by
  rw [Proc.ends_bind]
  refine (ends_txLength hmeanwhile hs).imp ?_
  rintro _ s' ⟨rfl, h⟩
  exact (Proc.ends_pure _).2 ⟨rfl, h⟩

/-- With space in the queue, one look is enough. -/
lemma ends_awaitSpace (hs : Waits units made s) (hspace : units.length < Queues.capacity) :
    ((among meanwhile log patience).await
      (do return (← (Link.i2c.channel (among meanwhile log patience)).txLength) !=
        BitVec.ofNat 32 Queues.capacity)).Ends s
      (fun _ s' => Waits units (made ++ [lengthLook units.length]) s') fun _ => False := by
  have hne : (BitVec.ofNat 32 units.length != BitVec.ofNat 32 Queues.capacity) = true := by
    rw [bne_iff_ne, ne_eq, ← BitVec.toNat_inj, Exchange.toNat_ofNat_length hspace.le]
    exact hspace.ne
  unfold Platform.await
  rw [Proc.ends_iterate, Platform.rounds, bind_assoc, Proc.ends_bind]
  refine (ends_hasSpace hmeanwhile hs).imp ?_
  rintro _ s' ⟨rfl, h⟩
  rw [hne, pure_bind]
  exact (Proc.ends_pure ()).2 h

/-- With a full queue, no number of looks is enough. -/
lemma stops_awaitSpace (hs : Waits units made s) (hfull : units.length = Queues.capacity) :
    ((among meanwhile log patience).await
      (do return (← (Link.i2c.channel (among meanwhile log patience)).txLength) !=
        BitVec.ofNat 32 Queues.capacity)).Stops s (fun _ _ => False)
      (fun e s' => e = .hang ∧ Waits units
        (made ++ List.replicate (patience + 1) (lengthLook Queues.capacity)) s') := by
  refine Proc.stops_iterate.2 (Proc.stops_rounds (M := fun i _ s' =>
    Waits units (made ++ List.replicate i (lengthLook Queues.capacity)) s')
    (fun i _ _ s₁ h₁ => ?_) (fun _ _ h => ⟨rfl, h⟩)
    (by rwa [List.replicate_zero, List.append_nil]))
  -- the queue is found full, and nothing takes from it before the next look
  rw [Proc.stops_bind]
  refine (ends_hasSpace hmeanwhile h₁).stops.mono ?_ fun _ _ h => h
  rintro _ s₂ ⟨rfl, h₂⟩
  rw [hfull, bne_self_eq_false]
  rw [hfull, List.append_assoc, ← List.replicate_succ'] at h₂
  exact (Proc.stops_pure _).2 h₂

/-! ### Queueing -/

/-- Frames for which there is space are queued with one look each. -/
lemma ends_sendEach (hs : Waits units made s) (w : Width) {frames : List Word}
    (hfits : units.length + frames.length ≤ Queues.capacity) :
    ((Link.i2c.channel (among meanwhile log patience)).sendEach w
      (BitVec.ofNat 32 Queues.capacity) frames).Ends s
      (fun _ s' => Waits (units ++ frames.map w.cut)
        (made ++ queueing units.length (frames.map w.cut)) s') fun _ => False := by
  induction frames generalizing s units made with
  | nil =>
    refine (Proc.ends_pure ()).2 ?_
    rwa [List.map_nil, queueing, List.append_nil, List.append_nil]
  | cons frame rest ih =>
    rw [List.length_cons] at hfits
    have hspace : units.length < Queues.capacity := by omega
    rw [Channel.sendEach, Proc.ends_bind]
    refine (ends_awaitSpace hmeanwhile hs hspace).imp fun _ s₁ h₁ => ?_
    rw [Proc.ends_bind]
    refine (ends_writeUnit hmeanwhile h₁ hspace.ne w frame).imp fun _ s₂ h₂ => ?_
    refine (ih h₂ (by rw [List.length_append, List.length_singleton]; omega)).imp fun _ s₃ h₃ => ?_
    rw [List.length_append, List.length_singleton] at h₃
    simpa only [List.map_cons, queueing, List.append_assoc, List.cons_append, List.nil_append]
      using h₃

/-- With more frames than there is space for, the queue is filled and the next one waits. -/
lemma stops_sendEach (hs : Waits units made s) (w : Width) {frames : List Word} {k : ℕ}
    (hk : units.length + k = Queues.capacity) (hmore : k < frames.length) :
    ((Link.i2c.channel (among meanwhile log patience)).sendEach w
      (BitVec.ofNat 32 Queues.capacity) frames).Stops s (fun _ _ => False)
      (fun e s' => e = .hang ∧ Waits (units ++ (frames.take k).map w.cut)
        (made ++ queueing units.length ((frames.take k).map w.cut) ++
          List.replicate (patience + 1) (lengthLook Queues.capacity)) s') := by
  have htake : (frames.take k).length = k := List.length_take_of_le hmore.le
  -- the frames that fit, then the first that does not
  rw [← List.take_append_drop k frames, List.drop_eq_getElem_cons hmore, Channel.sendEach_append,
    Proc.stops_bind]
  refine (ends_sendEach hmeanwhile hs w (by rw [htake, hk])).stops.mono ?_ fun _ _ h => h
  intro _ s₁ h₁
  rw [Channel.sendEach, Proc.stops_bind]
  refine (stops_awaitSpace hmeanwhile h₁ ?_).mono (fun _ _ h => h.elim) ?_
  · rw [List.length_append, List.length_map, htake, hk]
  · rintro e s₂ ⟨he, h₂⟩
    rw [List.take_left' htake]
    exact ⟨he, h₂⟩

lemma ends_capacity (hs : Waits units made s) :
    (Link.i2c.channel (among meanwhile log patience)).txCapacity.Ends s
      (fun v s' => v = BitVec.ofNat 32 Queues.capacity ∧ Waits units (made ++ [capacityLook]) s')
      fun _ => False := by
  refine (ends_look hmeanwhile hs (o := Link.i2c.layout.tx + QueueRegister.capacity)
    (f := fun _ => BitVec.ofNat 32 Queues.capacity) (by decide) (by decide) fun _ => rfl).imp ?_
  rintro _ s' ⟨rfl, h⟩
  exact ⟨rfl, h⟩

lemma ends_send (hs : Waits [] made s) {frames : List Word}
    (hfits : frames.length ≤ Queues.capacity) :
    ((Link.i2c.channel (among meanwhile log patience)).send .byte frames).Ends s
      (fun _ s' => Waits (frames.map Width.byte.cut)
        (made ++ [capacityLook] ++ queueing 0 (frames.map Width.byte.cut)) s')
      fun _ => False := by
  rw [Channel.send, Proc.ends_bind]
  refine (ends_capacity hmeanwhile hs).imp ?_
  rintro _ s₁ ⟨rfl, h₁⟩
  exact ends_sendEach hmeanwhile h₁ .byte (by rwa [List.length_nil, Nat.zero_add])

lemma stops_send (hs : Waits [] made s) {frames : List Word}
    (hmore : Queues.capacity < frames.length) :
    ((Link.i2c.channel (among meanwhile log patience)).send .byte frames).Stops s (fun _ _ => False)
      (fun e s' => e = .hang ∧ Waits ((frames.take Queues.capacity).map Width.byte.cut)
        (made ++ [capacityLook] ++
          queueing 0 ((frames.take Queues.capacity).map Width.byte.cut) ++
            List.replicate (patience + 1) (lengthLook Queues.capacity)) s') := by
  rw [Channel.send, Proc.stops_bind]
  refine (ends_capacity hmeanwhile hs).stops.mono ?_ fun _ _ h => h
  rintro _ s₁ ⟨rfl, h₁⟩
  exact stops_sendEach hmeanwhile h₁ .byte (Nat.zero_add _) hmore

lemma ends_start (hs : Waits units made s) (hlog : ∀ r, AwaitsStart (log r)) (n : ℕ) :
    (start (among meanwhile log patience) (BitVec.ofNat 32 n)).Ends s
      (fun _ s' => (s'.board.queues .i2c).tx = units ∧ s'.accesses = made ++ starting n)
      fun _ => False := by
  have hframes : Link.i2c.layout.Plain framesRegister := by constructor <;> decide
  have hstart : Link.i2c.layout.Plain startRegister := by constructor <;> decide
  rw [start, Proc.ends_bind]
  refine (hs.ends (hlog _)).imp fun _ s₁ h₁ => ?_
  rw [Proc.ends_bind]
  refine (ends_writeControl hmeanwhile h₁ hframes _).imp ?_
  rintro _ s₂ ⟨htx, hwire, haccesses⟩
  have h₂ : Waits units _ s₂ := ⟨htx, haccesses, hwire, by rw [started_append, hs.not_started]; rfl⟩
  refine (ends_writeControl hmeanwhile h₂ hstart _).imp ?_
  rintro _ s₃ ⟨htx, -, haccesses⟩
  exact ⟨htx, by rw [haccesses, List.append_assoc]; rfl⟩

end

/-- **A transfer gets started if its frames fit into the queue, and only then.** The transmit queue
is empty and its line holds it, and nobody takes from it before the controller is started. If the
frames fit, the driver queues them in order and starts the transfer, all with the accesses that are
listed, and goes on to wait for its end. If there are more frames, the driver fills the queue and
looks for space as often as its patience allows, and however often that is, the controller is not
started. -/
theorem transfer_starts_iff_fits (meanwhile : Proc (Station η τ) Unit)
    (log : Log.Record → Proc (Station η τ) Unit) (patience : ℕ)
    (hmeanwhile : AwaitsStart meanwhile) (hlog : ∀ r, AwaitsStart (log r)) (s : Station η τ)
    (hempty : (s.board.queues .i2c).tx = []) (hwire : (s.board.queues .i2c).wire = .hold)
    (hstart : started s.accesses = false) (frames : List Word) :
    (frames.length ≤ Queues.capacity → ∃ s₁,
      transfer (among meanwhile log patience) frames s =
        waitIdle (among meanwhile log patience) s₁ ∧
      s₁.accesses = s.accesses ++ [capacityLook] ++ queueing 0 (frames.map Width.byte.cut) ++
        starting frames.length ∧
      s₁.accesses.length = s.accesses.length + 2 * frames.length + 3 ∧
      (s₁.board.queues .i2c).tx = frames.map Width.byte.cut) ∧
    (Queues.capacity < frames.length → ∃ s₁,
      transfer (among meanwhile log patience) frames s = .error .hang s₁ ∧
      started s₁.accesses = false ∧
      s₁.accesses = s.accesses ++ [capacityLook] ++
        queueing 0 ((frames.take Queues.capacity).map Width.byte.cut) ++
        List.replicate (patience + 1) (lengthLook Queues.capacity) ∧
      (s₁.board.queues .i2c).tx = (frames.take Queues.capacity).map Width.byte.cut) := by
  have hs : Waits [] s.accesses s := ⟨hempty, rfl, hwire, hstart⟩
  constructor
  · -- all are queued before the start bit is set
    intro hfits
    obtain ⟨_, s₁, hsend, h₁⟩ := Proc.Ends.returns
      (x := (Link.i2c.channel (among meanwhile log patience)).send .byte frames)
      (ends_send hmeanwhile hs hfits)
    obtain ⟨_, s₂, hrun, htx, haccesses⟩ := Proc.Ends.returns
      (x := start (among meanwhile log patience) (BitVec.ofNat 32 frames.length))
      (ends_start hmeanwhile h₁ hlog frames.length)
    refine ⟨s₂, (Proc.bind_of_ok hsend).trans (Proc.bind_of_ok hrun), haccesses, ?_, htx⟩
    rw [haccesses]
    simp only [List.length_append, length_queueing, List.length_map, List.length_singleton]
    rw [starting, List.length_cons, List.length_singleton]
    ring
  · -- the wait for space comes before the start that would make some
    intro hmore
    obtain ⟨_, s₁, hsend, rfl, h₁⟩ := Proc.Stops.halts
      (x := (Link.i2c.channel (among meanwhile log patience)).send .byte frames)
      (stops_send hmeanwhile hs hmore)
    refine ⟨s₁, Proc.bind_of_error hsend, ?_, h₁.accesses, h₁.tx⟩
    rw [h₁.accesses, h₁.not_started]

/-- Once the controller is started, it shifts a frame out before each access. -/
def shiftOut : Proc (Station Unit Unit) Unit :=
  modify fun s => if started s.accesses then s.act (.take .i2c 1) else s

lemma shiftOut_awaitsStart : AwaitsStart shiftOut := by
  intro s hs
  rw [shiftOut, Proc.ends_modify, hs]
  exact ⟨rfl, rfl, rfl⟩

lemma silent_awaitsStart (_ : Log.Record) :
    AwaitsStart (pure () : Proc (Station Unit Unit) Unit) := by
  intro s _
  rw [Proc.ends_pure]
  exact ⟨rfl, rfl, rfl⟩

/-- A board out of reset. -/
def atReset : Station Unit Unit where
  board := .new
  buffer := .new .byte 0
  rest := ()

/-- Two frames get started, after which the controller shifts them out. -/
theorem transfer_starts_iff_fits_two :
    ∃ s₁, transfer (among shiftOut (fun _ => pure ()) 100) [0xa0#32, 0x101#32] atReset =
        waitIdle (among shiftOut (fun _ => pure ()) 100) s₁ ∧
      s₁.accesses = [.load 0x70002010 .word 8#32,
        .load 0x70002014 .word 0#32, .store 0x7000201c .word 0xa0#32,
        .load 0x70002014 .word 1#32, .store 0x7000201c .word 0x01#32,
        .store 0x70002004 .word 2#32, .store 0x70002008 .word 1#32] ∧
      (s₁.board.queues .i2c).tx = [0xa0#32, 0x01#32] := by
  obtain ⟨s₁, hrun, haccesses, -, htx⟩ := (transfer_starts_iff_fits shiftOut (fun _ => pure ())
    100 shiftOut_awaitsStart silent_awaitsStart atReset rfl rfl rfl
    [0xa0#32, 0x101#32]).1 (by decide)
  exact ⟨s₁, hrun, haccesses, htx⟩

/-- Nine frames are one too many: after twenty thousand rounds of waiting for a place for the ninth
the controller is not started, and the first eight are still in the queue. -/
theorem transfer_nine_not_started : ∃ s₁,
    transfer (among shiftOut (fun _ => pure ()) 20000)
      [1#32, 2#32, 3#32, 4#32, 5#32, 6#32, 7#32, 8#32, 9#32] atReset = .error .hang s₁ ∧
    started s₁.accesses = false ∧
    (s₁.board.queues .i2c).tx = [1#32, 2#32, 3#32, 4#32, 5#32, 6#32, 7#32, 8#32] := by
  have hs : Waits [] atReset.accesses atReset := ⟨rfl, rfl, rfl, rfl⟩
  obtain ⟨_, s₁, hsend, rfl, h₁⟩ := Proc.Stops.halts
    (x := (Link.i2c.channel (among shiftOut (fun _ => pure ()) 20000)).send .byte
      [1#32, 2#32, 3#32, 4#32, 5#32, 6#32, 7#32, 8#32, 9#32])
    (stops_send shiftOut_awaitsStart hs (by decide))
  exact ⟨s₁, Proc.bind_of_error hsend, by rw [h₁.accesses, h₁.not_started], h₁.tx⟩

end I2c

end BoardSupport
