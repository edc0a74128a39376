import BoardSupport.Proofs.BlockingSend

/-!
The calls that do not wait agree with those that do.

An attempt to send looks whether the queue is shorter than the capacity, and a send waits until its
length differs from the capacity. On a board out of reset no queue is longer than the capacity, so
both look for the same, and where nothing else is on the machine the first look decides.
-/

namespace BoardSupport

/-! ### Attempts over and over -/

namespace Channel

variable {σ : Type} (c : Channel σ) (w : Width)

/-- Enqueue units in order until one finds no space. It gives how many went. -/
def trySendAll : List Word → Proc σ ℕ
  | [] => return 0
  | unit :: rest => do
    if ← c.trySend w unit then
      return (← trySendAll rest) + 1
    else
      return 0

/-- One more unit after those that came, or the end. -/
def tryRecvNext (came : List Word) : Proc σ (List Word ⊕ List Word) := do
  match ← c.tryRecv w with
  | some unit => return .inl (came ++ [unit])
  | none => return .inr came

/-- Dequeue units until there is none, in at most `n` attempts. -/
def tryRecvAll (n : ℕ) : Proc σ (List Word) := Platform.rounds (c.tryRecvNext w) n []

/-- Dequeue as many units as wait. -/
def recvWaiting : Proc σ (List Word) := do
  let length ← c.rxLength
  c.recv w length.toNat

end Channel

/-! ### Alone -/

namespace Queues

variable {q : Queues} {j n : ℕ}

/-- The units that are taken without a wait are the longest such part of any number of units. -/
lemma taken_eq_self_iff (h : j ≤ n) : q.taken j = j ↔ j ≤ q.taken n := by
  unfold taken
  split_ifs
  · omega
  · split <;> omega

lemma taken_one (hle : q.tx.length ≤ capacity) : q.taken 1 = 1 ↔ q.tx.length ≠ capacity := by
  unfold taken
  split_ifs with hfull
  · simp [hfull]
  · refine iff_of_true ?_ hfull
    split
    · omega
    · rfl

end Queues

namespace Board

variable {link : Link} {b : Board} {patience : ℕ}

lemma send_one_board (h : (b.queues link).Bounded) (w : Width) (unit : Word) :
    (link.channel (platform patience)).send w [unit] b =
      if (b.queues link).tx.length = Queues.capacity then .error .hang b
      else .ok () (b.setQueues ((b.queues link).transmit (w.cut unit)) link) := by
  rw [send_board h, List.length_singleton]
  split_ifs with hone hfull hfull
  · exact absurd hfull ((Queues.taken_one h.tx).1 hone)
  · rfl
  · rw [Queues.taken_of_full hfull]
    exact congrArg _ (setQueues_queues b link)
  · exact absurd ((Queues.taken_one h.tx).2 hfull) hone

lemma trySend_board (h : (b.queues link).Bounded) (w : Width) (unit : Word) :
    (link.channel (platform patience)).trySend w unit b =
      if (b.queues link).tx.length = Queues.capacity then .ok false b
      else .ok true (b.setQueues ((b.queues link).transmit (w.cut unit)) link) := by
  have hlook : BitVec.ofNat 32 (b.queues link).tx.length < BitVec.ofNat 32 Queues.capacity ↔
      (b.queues link).tx.length ≠ Queues.capacity := by
    rw [BitVec.lt_def, Exchange.toNat_ofNat_length h.tx]
    exact h.tx.lt_iff_ne
  refine (Proc.bind_of_ok txLength_board).trans ((Proc.bind_of_ok txCapacity_board).trans ?_)
  split_ifs with hspace hfull hfull
  · exact absurd hfull (hlook.1 hspace)
  · exact Proc.bind_of_ok (writeUnit_board w unit)
  · rfl
  · exact absurd (hlook.2 hfull) hspace

lemma recv_one_nil (hrx : (b.queues link).rx = []) (w : Width) :
    (link.channel (platform patience)).recv w 1 b = .error .hang b := by
  rw [recv_board (by rw [hrx]; decide), if_neg (by rw [hrx]; decide), ← hrx]
  exact congrArg _ (setQueues_queues b link)

lemma recv_one_cons (h : (b.queues link).Bounded) {v : Word} {rest : List Word}
    (hrx : (b.queues link).rx = v :: rest) (w : Width) :
    (link.channel (platform patience)).recv w 1 b =
      .ok [w.cut v] (b.setQueues { b.queues link with rx := rest } link) := by
  have hone : 1 ≤ (v :: rest).length := Nat.le_add_left 1 _
  rw [recv_board (h.rx.trans_lt (by decide)), hrx, if_pos hone]
  rfl

lemma tryRecv_nil (hrx : (b.queues link).rx = []) (w : Width) :
    (link.channel (platform patience)).tryRecv w b = .ok none b := by
  refine (Proc.bind_of_ok rxLength_board).trans ?_
  rw [hrx]
  rfl

lemma tryRecv_cons (h : (b.queues link).Bounded) {v : Word} {rest : List Word}
    (hrx : (b.queues link).rx = v :: rest) (w : Width) :
    (link.channel (platform patience)).tryRecv w b =
      .ok (some (w.cut v)) (b.setQueues { b.queues link with rx := rest } link) := by
  have hlook : 0#32 < BitVec.ofNat 32 (b.queues link).rx.length := by
    rw [BitVec.lt_def, Exchange.toNat_ofNat_length h.rx, hrx]
    exact Nat.succ_pos _
  refine (Proc.bind_of_ok rxLength_board).trans ?_
  rw [if_pos hlook]
  exact Proc.bind_of_ok (readUnit_board w hrx)

/-- Attempts to send stop where a send would wait. -/
lemma trySendAll_board (h : (b.queues link).Bounded) (w : Width) (units : List Word) :
    (link.channel (platform patience)).trySendAll w units b =
      .ok ((b.queues link).taken units.length) (b.setQueues ((b.queues link).transmitAll
        ((units.take ((b.queues link).taken units.length)).map w.cut)) link) := by
  induction units generalizing b with
  | nil =>
    rw [List.length_nil, Queues.taken_zero]
    exact congrArg _ (setQueues_queues b link).symm
  | cons unit rest ih =>
    rw [Channel.trySendAll, List.length_cons]
    by_cases hfull : (b.queues link).tx.length = Queues.capacity
    · -- the first unit that finds the queue full ends the attempt
      rw [Queues.taken_of_full hfull]
      refine (Proc.bind_of_ok ((trySend_board h w unit).trans (if_pos hfull))).trans ?_
      exact congrArg _ (setQueues_queues b link).symm
    · have hput : (b.setQueues ((b.queues link).transmit (w.cut unit)) link).queues link =
          (b.queues link).transmit (w.cut unit) := queues_setQueues ..
      have hrest := ih (b := b.setQueues ((b.queues link).transmit (w.cut unit)) link)
        (by rw [hput]; exact h.transmit _)
      rw [hput, setQueues_setQueues] at hrest
      rw [Queues.taken_succ h.tx hfull (w.cut unit)]
      refine (Proc.bind_of_ok ((trySend_board h w unit).trans (if_neg hfull))).trans ?_
      exact Proc.bind_of_ok hrest

/-- Attempts to receive take what waits, after the units that came before. -/
lemma rounds_tryRecvNext_board (h : (b.queues link).Bounded) (w : Width) {n : ℕ}
    (hn : (b.queues link).rx.length < n) (came : List Word) :
    Platform.rounds ((link.channel (platform patience)).tryRecvNext w) n came b =
      .ok (came ++ (b.queues link).rx.map w.cut)
        (b.setQueues { b.queues link with rx := [] } link) := by
  induction n generalizing b came with
  | zero => exact absurd hn (Nat.not_lt_zero _)
  | succ n ih =>
    cases hrx : (b.queues link).rx with
    | nil =>
      -- the rounds end with the first that finds nothing
      have hstep : (link.channel (platform patience)).tryRecvNext w came b =
          .ok (.inr came) b := Proc.bind_of_ok (tryRecv_nil hrx w)
      refine (Platform.rounds_of_inr hstep n).trans ?_
      rw [List.map_nil, List.append_nil, ← hrx]
      exact congrArg _ (setQueues_queues b link).symm
    | cons v rest =>
      obtain ⟨q, hq⟩ : ∃ q, q = { b.queues link with rx := rest } := ⟨_, rfl⟩
      have hstep : (link.channel (platform patience)).tryRecvNext w came b =
          .ok (.inl (came ++ [w.cut v])) (b.setQueues q link) :=
        hq ▸ Proc.bind_of_ok (tryRecv_cons h hrx w)
      have hput : (b.setQueues q link).queues link = q := queues_setQueues ..
      have hlength : q.rx.length + 1 = (b.queues link).rx.length := by rw [hq, hrx]; rfl
      have hbounded : q.Bounded := ⟨by rw [hq]; exact h.tx, by have := h.rx; omega⟩
      have hrest := ih (b := b.setQueues q link) (by rw [hput]; exact hbounded)
        (by rw [hput]; omega) (came ++ [w.cut v])
      rw [hput, setQueues_setQueues] at hrest
      rw [Platform.rounds_of_inl hstep n, hrest, hq, List.append_assoc]
      rfl

lemma recvWaiting_board (h : (b.queues link).Bounded) (w : Width) :
    (link.channel (platform patience)).recvWaiting w b =
      .ok ((b.queues link).rx.map w.cut) (b.setQueues { b.queues link with rx := [] } link) := by
  refine (Proc.bind_of_ok rxLength_board).trans ?_
  rw [Exchange.toNat_ofNat_length h.rx, recv_board (h.rx.trans_lt (by decide)), if_pos le_rfl,
    List.take_length, List.drop_length]

end Board

/-- **The calls that do not wait agree with those that do.** Let a board be out of reset, with
nothing else on the machine. An attempt succeeds just where the call for one unit returns, with the
same unit and board, and one that does not succeed changes nothing. So attempts to send queue the
longest first part of the units that a send could queue, and attempts to receive give what a call
for all units that wait gives. -/
theorem attempts_agree (link : Link) (w : Width) (patience : ℕ) {b : Board} (h : b.Reachable) :
    let c := link.channel (Board.platform patience)
    (∀ unit b', c.trySend w unit b = .ok true b' ↔ c.send w [unit] b = .ok () b') ∧
    (∀ unit b', c.trySend w unit b = .ok false b' ↔
      b' = b ∧ ∀ b'', c.send w [unit] b ≠ .ok () b'') ∧
    (∀ unit b', c.tryRecv w b = .ok (some unit) b' ↔ c.recv w 1 b = .ok [unit] b') ∧
    (∀ b', c.tryRecv w b = .ok none b' ↔
      b' = b ∧ ∀ units b'', c.recv w 1 b ≠ .ok units b'') ∧
    (∀ units, ∃ k b', c.trySendAll w units b = .ok k b' ∧ k ≤ units.length ∧
      c.send w (units.take k) b = .ok () b' ∧
      ∀ j ≤ units.length, ∀ b'', c.send w (units.take j) b = .ok () b'' → j ≤ k) ∧
    ∃ units b', c.recvWaiting w b = .ok units b' ∧
      ∀ n, (b.queues link).rx.length < n → c.tryRecvAll w n b = .ok units b' := by
  have hbounded := h.bounded link
  intro c
  refine ⟨fun unit b' => ?_, fun unit b' => ?_, fun unit b' => ?_, fun b' => ?_, fun units => ?_,
    _, _, Board.recvWaiting_board hbounded w,
    fun n hn => Board.rounds_tryRecvNext_board hbounded w hn []⟩
  · rw [Board.trySend_board hbounded, Board.send_one_board hbounded]
    split_ifs <;> simp
  · rw [Board.trySend_board hbounded, Board.send_one_board hbounded]
    split_ifs <;> simp [eq_comm]
  · cases hrx : (b.queues link).rx with
    | nil => simp [c, Board.tryRecv_nil hrx, Board.recv_one_nil hrx]
    | cons v rest => simp [c, Board.tryRecv_cons hbounded hrx, Board.recv_one_cons hbounded hrx]
  · cases hrx : (b.queues link).rx with
    | nil => simp [c, Board.tryRecv_nil hrx, Board.recv_one_nil hrx, eq_comm]
    | cons v rest => simp [c, Board.tryRecv_cons hbounded hrx, Board.recv_one_cons hbounded hrx]
  · -- as many go out as a blocking call would send without waiting
    have hle := (b.queues link).taken_le units.length
    have hsend : ∀ j ≤ units.length, (b.queues link).taken (units.take j).length =
        (units.take j).length ↔ j ≤ (b.queues link).taken units.length := fun j hj => by
      rw [List.length_take_of_le hj]
      exact Queues.taken_eq_self_iff hj
    refine ⟨_, _, Board.trySendAll_board hbounded w units, hle, ?_, fun j hj b'' hj' => ?_⟩
    · rw [Board.send_board hbounded, if_pos ((hsend _ hle).2 le_rfl)]
    · rw [Board.send_board hbounded] at hj'
      split_ifs at hj' with htaken
      exact (hsend j hj).1 htaken

/-- Two units wait to be received, and two more find space to leave. -/
def nearlyFull : Board where
  spi0 := { tx := List.replicate 6 1#32, rx := [0x41#32, 0x10042#32] }

theorem attempts_agree_nearlyFull :
    (∃ b', (Link.spi0.channel (Board.platform 8)).trySendAll .half [2#32, 0x10003#32, 4#32]
        nearlyFull = .ok 2 b' ∧
      (Link.spi0.channel (Board.platform 8)).send .half [2#32, 0x10003#32] nearlyFull =
        .ok () b') ∧
    (Link.spi0.channel (Board.platform 8)).tryRecvAll .half 3 nearlyFull =
      .ok [0x41#32, 0x42#32] { spi0 := { tx := List.replicate 6 1#32 } } := by
  have hreach : nearlyFull.Reachable :=
    ⟨List.replicate 6
        (.store (Link.spi0.base + Link.spi0.layout.tx + QueueRegister.data) .word 1#32) ++
      [.outside (.send .spi0 0x41#32), .outside (.send .spi0 0x10042#32)], rfl⟩
  obtain ⟨-, -, -, -, hsend, units, b', hwaiting, hrecv⟩ :=
    attempts_agree .spi0 .half 8 hreach
  constructor
  · have hcount : (match (Link.spi0.channel (Board.platform 8)).trySendAll .half
        [2#32, 0x10003#32, 4#32] nearlyFull with
        | .ok k _ => k
        | .error _ _ => 0) = 2 := by decide +kernel
    obtain ⟨k, b', hrun, -, hfirst, -⟩ := hsend [2#32, 0x10003#32, 4#32]
    rw [hrun] at hcount
    cases hcount
    exact ⟨b', hrun, hfirst⟩
  · rw [hrecv 3 (by decide), ← hwaiting]
    rfl

end BoardSupport
