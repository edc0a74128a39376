import BoardSupport.Proofs.BlockingReceive
import BoardSupport.Proofs.Transfers

/-!
A blocking send loses nothing.

What left a channel and what waits in its transmit queue is the line of the channel. A peer that
takes units moves them along the line, and a send puts its units at the end, each after a look at
the length of the queue. So whatever the peers take between the accesses of a send, the line grows
by its units in order. Where nobody takes any, the send fills the queue, and then waits for ever if
units are left.
-/

namespace BoardSupport

/-! ### The line of a channel -/

namespace Queues

variable {q q' q'' : Queues}

/-- All units that were put on the line, first those that left and then those that wait. -/
def line (q : Queues) : List Word := q.transmitted ++ q.tx

/-- From `q` to `q'` units only went from the transmit queue to the peer. -/
structure Eased (q q' : Queues) : Prop where
  line : q'.line = q.line
  wire : q'.wire = q.wire
  dropped : q'.droppedTx = q.droppedTx
  shorter : q'.tx.length ≤ q.tx.length

lemma eased_refl (q : Queues) : Eased q q := ⟨rfl, rfl, rfl, le_rfl⟩

lemma Eased.trans (h : Eased q q') (h' : Eased q' q'') : Eased q q'' :=
  ⟨h'.line.trans h.line, h'.wire.trans h.wire, h'.dropped.trans h.dropped,
    h'.shorter.trans h.shorter⟩

lemma eased_arrive (q : Queues) (unit : Word) : Eased q (q.arrive unit) := by
  unfold arrive
  split <;> exact ⟨rfl, rfl, rfl, le_rfl⟩

lemma eased_drain (q : Queues) (n : ℕ) : Eased q (q.drain n) := by
  refine ⟨?_, rfl, rfl, ?_⟩
  · show q.transmitted ++ q.tx.take n ++ q.tx.drop n = q.transmitted ++ q.tx
    rw [List.append_assoc, List.take_append_drop]
  · show (q.tx.drop n).length ≤ q.tx.length
    rw [List.length_drop]
    exact Nat.sub_le _ _

lemma transmit_hold (hwire : q.wire = .hold) (hspace : q.tx.length ≠ capacity) (unit : Word) :
    q.transmit unit = { q with tx := q.tx ++ [unit] } := by
  unfold transmit
  rw [if_neg hspace, hwire]

lemma transmit_loopback (hwire : q.wire = .loopback) (hspace : q.tx.length ≠ capacity)
    (unit : Word) :
    q.transmit unit = { q with transmitted := q.transmitted ++ [unit] }.arrive unit := by
  unfold transmit
  rw [if_neg hspace, hwire]

end Queues

namespace Board

/-- All that the world outside can do to the queues of a channel. -/
lemma act_queues (b : Board) (o : Outside) (link : Link) :
    (∃ wire, o = .rewire link wire) ∨ (b.act o).queues link = b.queues link ∨
      (∃ unit, (b.act o).queues link = (b.queues link).arrive unit) ∨
      ∃ n, (b.act o).queues link = (b.queues link).drain n := by
  cases o with
  | send l unit =>
    by_cases hl : link = l
    · subst hl
      exact .inr (.inr (.inl ⟨unit, queues_setQueues ..⟩))
    · exact .inr (.inl (queues_setQueues_of_ne _ _ hl))
  | take l n =>
    by_cases hl : link = l
    · subst hl
      exact .inr (.inr (.inr ⟨n, queues_setQueues ..⟩))
    · exact .inr (.inl (queues_setQueues_of_ne _ _ hl))
  | rewire l wire =>
    by_cases hl : link = l
    · subst hl
      exact .inl ⟨wire, rfl⟩
    · exact .inr (.inl (queues_setQueues_of_ne _ _ hl))
  | request id =>
    rw [act_request]
    exact .inr (.inl (queues_arbiter ..))

lemma eased_act {b : Board} {o : Outside} {link : Link} (ho : ∀ wire, o ≠ .rewire link wire) :
    (b.queues link).Eased ((b.act o).queues link) := by
  rcases b.act_queues o link with ⟨wire, h⟩ | h | ⟨unit, h⟩ | ⟨n, h⟩
  · exact absurd h (ho wire)
  · rw [h]
    exact Queues.eased_refl _
  · rw [h]
    exact Queues.eased_arrive _ unit
  · rw [h]
    exact Queues.eased_drain _ n

end Board

/-! ### Among peers -/

namespace Station

variable {η τ : Type} {link : Link} {s s' s'' : Station η τ} {us vs : List Word}
  {log : Log.Record → Proc (Station η τ) Unit} {patience : ℕ}

/-- The channel holds its units until the peer takes them, now and in all that is to come. -/
structure Held (link : Link) (s : Station η τ) : Prop where
  bounded : s.board.Bounded
  wire : (s.board.queues link).wire = .hold
  schedule : ∀ acts ∈ s.schedule, ∀ wire, .rewire link wire ∉ acts

/-- From `s`, where the channel holds its units, to `s'` the peer may have taken some of them. -/
def Eased (link : Link) (s s' : Station η τ) : Prop :=
  Held link s → Held link s' ∧ (s.board.queues link).Eased (s'.board.queues link)

instance : IsPreorder (Station η τ) (Eased link) where
  refl _ h := ⟨h, Queues.eased_refl _⟩
  trans _ _ _ h h' := fun hs => ⟨(h' (h hs).1).1, (h hs).2.trans (h' (h hs).1).2⟩

lemma act_board (s : Station η τ) (o : Outside) : (s.act o).board = s.board.act o := by
  cases o with
  | request id =>
    rw [act_request, Board.act_request]
    rfl
  | _ => rfl

lemma act_schedule (s : Station η τ) (o : Outside) : (s.act o).schedule = s.schedule := by
  cases o with
  | request id => rw [act_request]
  | _ => rfl

lemma meanwhile_eased (link : Link) (s : Station η τ) : Eased link s s.meanwhile := by
  have hacts : ∀ (acts : List Outside) (s : Station η τ), (∀ wire, .rewire link wire ∉ acts) →
      Eased link s (acts.foldl act s) := by
    intro acts
    induction acts with
    | nil => exact fun s _ => refl_of (Eased link) s
    | cons o rest ih =>
      intro s hrest
      have ho : ∀ wire, o ≠ .rewire link wire := fun wire h => hrest wire (h ▸ List.mem_cons_self)
      refine trans_of (Eased link) (fun hs => ?_)
        (ih (s.act o) fun wire h => hrest wire (List.mem_cons_of_mem o h))
      have heased := Board.eased_act (b := s.board) ho
      rw [← act_board] at heased
      refine ⟨⟨?_, heased.wire.trans hs.wire, ?_⟩, heased⟩
      · rw [act_board]
        exact hs.bounded.act o
      · rw [act_schedule]
        exact hs.schedule
  intro hs
  have hnext : Held link { s with schedule := s.schedule.tail } :=
    ⟨hs.bounded, hs.wire, fun acts h => hs.schedule acts (List.mem_of_mem_tail h)⟩
  refine hacts _ { s with schedule := s.schedule.tail } (fun wire h => ?_) hnext
  cases hschedule : s.schedule with
  | nil =>
    rw [hschedule] at h
    cases h
  | cons acts rest =>
    rw [hschedule] at h
    exact hs.schedule acts (hschedule ▸ List.mem_cons_self) wire h

/-- Reading a register other than the receive data register takes no more than peers do. -/
lemma ends_readRegister {E : Halt → Prop} {o : ℕ} (ho : o < MemoryMap.blockSize)
    (hne : o ≠ link.layout.rx + QueueRegister.data) {f : Queues → Word}
    (hf : ∀ q : Queues, q.read? link.layout o = some (f q)) :
    ((link.channel (platform log patience)).regs.read o).Ends s
      (fun v s' => Eased link s s' ∧ v = f (s'.board.queues link)) E := by
  rw [Link.read_eq _ _ ho, ends_load, Board.load_register _ _ _ ho hne, hf]
  refine ⟨fun hs => ?_, rfl⟩
  obtain ⟨hheld, heased⟩ := meanwhile_eased link s hs
  exact ⟨⟨hheld.bounded, hheld.wire, hheld.schedule⟩, heased⟩

/-- The wait for space. -/
lemma stops_awaitSpace {capacity : Word} :
    ((platform log patience).await
      (do return (← (link.channel (platform log patience)).txLength) != capacity)).Stops s
      (fun _ s' => Eased link s s' ∧ BitVec.ofNat 32 (s'.board.queues link).tx.length ≠ capacity)
      (fun e s' => e = .hang ∧ Eased link s s' ∧
        BitVec.ofNat 32 (s'.board.queues link).tx.length = capacity) := by
  have hcondition : ∀ s : Station η τ,
      (do return (← (link.channel (platform log patience)).txLength) != capacity :
        Proc (Station η τ) Bool).Ends s (fun r s' => Eased link s s' ∧
          r = (BitVec.ofNat 32 (s'.board.queues link).tx.length != capacity)) fun _ => False := by
    intro s
    rw [Proc.ends_bind]
    refine (ends_readRegister (o := link.layout.tx + QueueRegister.length)
      (f := fun q => BitVec.ofNat 32 q.tx.length) (by cases link <;> decide)
      (by cases link <;> decide) (fun q => by cases link <;> rfl)).imp ?_
    rintro _ s' ⟨h, rfl⟩
    exact (Proc.ends_pure _).2 ⟨h, rfl⟩
  refine (Proc.stops_await_of_ends hcondition).mono ?_ ?_
  · rintro _ s' ⟨h, hne⟩
    exact ⟨h, by simpa using hne.symm⟩
  · rintro e s' ⟨he, h, heq⟩
    exact ⟨he, h, by simpa using heq.symm⟩

/-- From `s` to `s'` the units joined the line, and none was lost. -/
structure Joined (link : Link) (us : List Word) (s s' : Station η τ) : Prop where
  held : Held link s'
  line : (s'.board.queues link).line = (s.board.queues link).line ++ us
  dropped : (s'.board.queues link).droppedTx = (s.board.queues link).droppedTx

lemma Eased.joined (h : Eased link s s') (hs : Held link s) : Joined link [] s s' :=
  ⟨(h hs).1, by rw [(h hs).2.line, List.append_nil], (h hs).2.dropped⟩

lemma Joined.trans (h : Joined link us s s') (h' : Joined link vs s' s'') :
    Joined link (us ++ vs) s s'' :=
  ⟨h'.held, by rw [h'.line, h.line, List.append_assoc], h'.dropped.trans h.dropped⟩

/-- A unit that is written while there is space joins the line. Until it is written the peers may
have made more space, but not less. -/
lemma ends_writeUnit (hs : Held link s) (hspace : (s.board.queues link).tx.length < Queues.capacity)
    (w : Width) (unit : Word) :
    ((link.channel (platform log patience)).writeUnit w unit).Ends s
      (fun _ s' => Joined link [w.cut unit] s s') fun _ => False := by
  obtain ⟨hheld, heased⟩ := meanwhile_eased link s hs
  have hwrite : (s.meanwhile.board.queues link).write? link.layout
      (link.layout.tx + QueueRegister.data) (w.cut unit) =
        some ((s.meanwhile.board.queues link).transmit (w.cut unit)) := by cases link <;> rfl
  have hstore := Board.store_channel (by cases link <;> decide) hwrite
  have hqueues : ((s.meanwhile.board.store (link.base + (link.layout.tx + QueueRegister.data))
      .word (w.cut unit)).queues link) = { s.meanwhile.board.queues link with
        tx := (s.meanwhile.board.queues link).tx ++ [w.cut unit] } := by
    rw [hstore, Board.queues_setQueues]
    exact Queues.transmit_hold hheld.wire (heased.shorter.trans_lt hspace).ne _
  have heq : (link.channel (platform log patience)).writeUnit w unit =
      (platform log patience).store (link.base + (link.layout.tx + QueueRegister.data)) .word
        (w.cut unit) :=
    link.write_eq (o := link.layout.tx + QueueRegister.data) _ (by cases link <;> decide) _
  rw [heq, ends_store]
  refine ⟨⟨hheld.bounded.store _ _ _, ?_, hheld.schedule⟩, ?_, ?_⟩
  · rw [saw_board, hqueues]
    exact hheld.wire
  · rw [saw_board, hqueues, ← heased.line]
    exact (List.append_assoc ..).symm
  · rw [saw_board, hqueues, ← heased.dropped]

/-- All units join the line in order. A send that waits for ever has put some of them there, and
waits at a full queue. -/
lemma stops_sendEach (hs : Held link s) (w : Width) (units : List Word) :
    ((link.channel (platform log patience)).sendEach w (BitVec.ofNat 32 Queues.capacity)
      units).Stops s
      (fun _ s' => Joined link (units.map w.cut) s s')
      (fun e s' => e = .hang ∧ (s'.board.queues link).tx.length = Queues.capacity ∧
        ∃ k < units.length, Joined link ((units.take k).map w.cut) s s') := by
  -- a length that is shown as the capacity is the capacity, since no queue is longer than that
  have hfull : ∀ s : Station η τ, Held link s →
      (BitVec.ofNat 32 (s.board.queues link).tx.length = BitVec.ofNat 32 Queues.capacity ↔
        (s.board.queues link).tx.length = Queues.capacity) := by
    intro s hs
    have hle := (hs.bounded link).tx
    rw [← BitVec.toNat_inj, Exchange.toNat_ofNat_length hle]
    rfl
  induction units generalizing s with
  | nil => exact (Proc.stops_pure _).2 (Eased.joined (refl_of _ s) hs)
  | cons unit rest ih =>
    rw [Channel.sendEach, Proc.stops_bind]
    refine stops_awaitSpace.mono ?_ ?_
    · -- the queue is not full, and the peer only takes from it
      rintro _ s₁ ⟨h₁, hne⟩
      have hs₁ := (h₁ hs).1
      have hspace := lt_of_le_of_ne (hs₁.bounded link).tx fun h => hne ((hfull s₁ hs₁).2 h)
      rw [Proc.stops_bind]
      refine (ends_writeUnit hs₁ hspace w unit).stops.mono ?_ fun _ _ h => h
      intro _ s₂ h₂
      have hjoined : Joined link [w.cut unit] s s₂ := (h₁.joined hs).trans h₂
      refine (ih hjoined.held).mono (fun _ s₃ h₃ => hjoined.trans h₃) ?_
      rintro e s₃ ⟨he, hlength, k, hk, h₃⟩
      exact ⟨he, hlength, k + 1, Nat.succ_lt_succ hk, hjoined.trans h₃⟩
    · -- a peer that takes nothing keeps the call waiting
      rintro e s₁ ⟨he, h₁, heq⟩
      exact ⟨he, (hfull s₁ (h₁ hs).1).1 heq, 0, Nat.succ_pos _, h₁.joined hs⟩

lemma stops_send (hs : Held link s) (w : Width) (units : List Word) :
    ((link.channel (platform log patience)).send w units).Stops s
      (fun _ s' => Joined link (units.map w.cut) s s')
      (fun e s' => e = .hang ∧ (s'.board.queues link).tx.length = Queues.capacity ∧
        ∃ k < units.length, Joined link ((units.take k).map w.cut) s s') := by
  rw [Channel.send, Proc.stops_bind]
  refine (ends_readRegister (o := link.layout.tx + QueueRegister.capacity)
    (f := fun _ => BitVec.ofNat 32 Queues.capacity) (by cases link <;> decide)
    (by cases link <;> decide) (fun q => by cases link <;> rfl)).stops.mono ?_ fun _ _ h => h
  rintro _ s₁ ⟨h₁, rfl⟩
  have hjoined := h₁.joined hs
  refine (stops_sendEach hjoined.held w units).mono (fun _ s₂ h₂ => hjoined.trans h₂) ?_
  rintro e s₂ ⟨he, hlength, k, hk, h₂⟩
  exact ⟨he, hlength, k, hk, hjoined.trans h₂⟩

end Station

/-! ### Alone -/

namespace Queues

variable {q : Queues} {n : ℕ}

def transmitAll (q : Queues) (units : List Word) : Queues := units.foldl transmit q

/-- How many of `n` units are taken before one has to wait. Only where the line holds them does the
queue fill. -/
def taken (q : Queues) (n : ℕ) : ℕ :=
  if q.tx.length = capacity then 0
  else
    match q.wire with
    | .hold => min n (capacity - q.tx.length)
    | _ => n

lemma taken_of_full (h : q.tx.length = capacity) (n : ℕ) : q.taken n = 0 := if_pos h

@[simp] lemma taken_zero (q : Queues) : q.taken 0 = 0 := by
  unfold taken
  split_ifs
  · rfl
  · cases q.wire <;> simp

lemma taken_le (q : Queues) (n : ℕ) : q.taken n ≤ n := by
  unfold taken
  split_ifs
  · exact Nat.zero_le n
  · split
    · exact Nat.min_le_left n _
    · exact le_rfl

/-- One unit and then the others. -/
lemma taken_succ (hle : q.tx.length ≤ capacity) (hspace : q.tx.length ≠ capacity) (unit : Word) :
    q.taken (n + 1) = (q.transmit unit).taken n + 1 := by
  cases hwire : q.wire with
  | hold =>
    rw [transmit_hold hwire hspace]
    simp only [taken, if_neg hspace, hwire, List.length_append, List.length_singleton]
    split_ifs <;> omega
  | sink => simp [taken, transmit, hspace, hwire]
  | loopback =>
    have heased := eased_arrive { q with transmitted := q.transmitted ++ [unit] } unit
    have htx : (q.transmit unit).tx = q.tx := by
      rw [transmit_loopback hwire hspace]
      exact arrive_tx _ unit
    have hwire' : (q.transmit unit).wire = .loopback := by
      rw [transmit_loopback hwire hspace]
      exact heased.wire.trans hwire
    simp [taken, htx, hwire', hspace, hwire]

lemma taken_hold (hwire : q.wire = .hold) (n : ℕ) :
    q.taken n = min n (capacity - q.tx.length) := by
  simp only [taken, hwire]
  split_ifs <;> omega

/-- On a held line the units that find space wait in order. -/
lemma transmitAll_hold (hwire : q.wire = .hold) {units : List Word}
    (h : q.tx.length + units.length ≤ capacity) :
    q.transmitAll units = { q with tx := q.tx ++ units } := by
  induction units generalizing q with
  | nil => rw [List.append_nil]; rfl
  | cons unit rest ih =>
    rw [List.length_cons] at h
    have hspace : q.tx.length ≠ capacity := by omega
    have hrest : (q.tx ++ [unit]).length + rest.length ≤ capacity := by
      rw [List.length_append, List.length_singleton]
      omega
    calc q.transmitAll (unit :: rest)
        = ({ q with tx := q.tx ++ [unit] } : Queues).transmitAll rest := by
          rw [transmitAll, List.foldl_cons, transmit_hold hwire hspace]
          rfl
      _ = { q with tx := q.tx ++ [unit] ++ rest } := ih hwire hrest
      _ = { q with tx := q.tx ++ unit :: rest } := by rw [List.append_assoc]; rfl

end Queues

namespace Board

variable {link : Link} {b : Board} {patience : ℕ}

lemma readRegister_board {o : ℕ} {v : Word} (ho : o < MemoryMap.blockSize)
    (hne : o ≠ link.layout.rx + QueueRegister.data)
    (hv : (b.queues link).read? link.layout o = some v) :
    (link.channel (platform patience)).regs.read o b = .ok v b := by
  rw [Link.read_eq _ _ ho]
  refine platform_load_of_ok ?_
  rw [load_register b link .word ho hne, hv]
  rfl

lemma txLength_board : (link.channel (platform patience)).txLength b =
    .ok (BitVec.ofNat 32 (b.queues link).tx.length) b :=
  readRegister_board (o := link.layout.tx + QueueRegister.length) (by cases link <;> decide)
    (by cases link <;> decide) (by cases link <;> rfl)

lemma txCapacity_board : (link.channel (platform patience)).txCapacity b =
    .ok (BitVec.ofNat 32 Queues.capacity) b :=
  readRegister_board (o := link.layout.tx + QueueRegister.capacity) (by cases link <;> decide)
    (by cases link <;> decide) (by cases link <;> rfl)

lemma writeUnit_board (w : Width) (unit : Word) :
    (link.channel (platform patience)).writeUnit w unit b =
      .ok () (b.setQueues ((b.queues link).transmit (w.cut unit)) link) := by
  have hwrite : (b.queues link).write? link.layout (link.layout.tx + QueueRegister.data)
      (w.cut unit) = some ((b.queues link).transmit (w.cut unit)) := by cases link <;> rfl
  have heq : (link.channel (platform patience)).writeUnit w unit =
      (platform patience).store (link.base + (link.layout.tx + QueueRegister.data)) .word
        (w.cut unit) :=
    link.write_eq (o := link.layout.tx + QueueRegister.data) _ (by cases link <;> decide) _
  rw [heq]
  exact congrArg (EStateM.Result.ok ()) (store_channel (by cases link <;> decide) hwrite)

/-- The wait for space is over at once, or never. -/
lemma awaitSpace_board (h : (b.queues link).tx.length ≤ Queues.capacity) :
    (platform patience).await
      (do return (← (link.channel (platform patience)).txLength) != BitVec.ofNat 32 Queues.capacity)
      b = if (b.queues link).tx.length = Queues.capacity then .error .hang b else .ok () b := by
  have hcondition :
      (do return (← (link.channel (platform patience)).txLength) != BitVec.ofNat 32 Queues.capacity :
        Proc Board Bool) b =
      .ok (BitVec.ofNat 32 (b.queues link).tx.length != BitVec.ofNat 32 Queues.capacity) b :=
    Proc.bind_of_ok txLength_board
  split_ifs with hfull
  · rw [hfull, bne_self_eq_false] at hcondition
    exact Platform.await_of_false hcondition
  · have hne : (BitVec.ofNat 32 (b.queues link).tx.length != BitVec.ofNat 32 Queues.capacity) =
        true := by
      rw [bne_iff_ne, ne_eq, ← BitVec.toNat_inj, Exchange.toNat_ofNat_length h]
      exact hfull
    rw [hne] at hcondition
    exact Platform.await_of_true hcondition

/-- A send on a board alone: the units that are taken, and the end of it or a wait for ever. -/
lemma sendEach_board (h : (b.queues link).Bounded) (w : Width) (units : List Word) :
    (link.channel (platform patience)).sendEach w (BitVec.ofNat 32 Queues.capacity) units b =
      if (b.queues link).taken units.length = units.length then
        .ok () (b.setQueues ((b.queues link).transmitAll (units.map w.cut)) link)
      else .error .hang (b.setQueues ((b.queues link).transmitAll
        ((units.take ((b.queues link).taken units.length)).map w.cut)) link) := by
  induction units generalizing b with
  | nil =>
    rw [List.length_nil, Queues.taken_zero, if_pos rfl]
    exact congrArg _ (setQueues_queues b link).symm
  | cons unit rest ih =>
    rw [Channel.sendEach, List.length_cons]
    by_cases hfull : (b.queues link).tx.length = Queues.capacity
    · -- a full queue stays full while nobody takes from it
      rw [Queues.taken_of_full hfull, if_neg (Nat.succ_ne_zero _).symm]
      refine (Proc.bind_of_error ((awaitSpace_board h.tx).trans (if_pos hfull))).trans ?_
      exact congrArg _ (setQueues_queues b link).symm
    · have hput : (b.setQueues ((b.queues link).transmit (w.cut unit)) link).queues link =
          (b.queues link).transmit (w.cut unit) := queues_setQueues ..
      have hrest := ih (b := b.setQueues ((b.queues link).transmit (w.cut unit)) link)
        (by rw [hput]; exact h.transmit _)
      rw [hput, setQueues_setQueues, setQueues_setQueues] at hrest
      refine (Proc.bind_of_ok ((awaitSpace_board h.tx).trans (if_neg hfull))).trans ?_
      refine (Proc.bind_of_ok (writeUnit_board w unit)).trans (hrest.trans ?_)
      rw [Queues.taken_succ h.tx hfull (w.cut unit)]
      by_cases hall : ((b.queues link).transmit (w.cut unit)).taken rest.length = rest.length
      · rw [if_pos hall, if_pos (congrArg (· + 1) hall)]
        rfl
      · rw [if_neg hall, if_neg fun h => hall (Nat.succ_injective h)]
        rfl

lemma send_board (h : (b.queues link).Bounded) (w : Width) (units : List Word) :
    (link.channel (platform patience)).send w units b =
      if (b.queues link).taken units.length = units.length then
        .ok () (b.setQueues ((b.queues link).transmitAll (units.map w.cut)) link)
      else .error .hang (b.setQueues ((b.queues link).transmitAll
        ((units.take ((b.queues link).taken units.length)).map w.cut)) link) :=
  (Proc.bind_of_ok txCapacity_board).trans (sendEach_board h w units)

end Board

/-- **A blocking send loses nothing.** On a board out of reset, as long as nobody rewires a channel
that holds its units, what left on the line and what waits grows by the units of the send in order,
whatever happens outside between its accesses, and no unit is dropped. The send halts only in a wait
at a full queue. On a board alone it returns if there is space for all units. Else it fills the
queue with the first of them, and no patience is enough. -/
theorem send_loses_nothing {η τ : Type} (link : Link) (w : Width) (units : List Word)
    (patience : ℕ) :
    (∀ (log : Log.Record → Proc (Station η τ) Unit) (s : Station η τ), s.board.Reachable →
      (s.board.queues link).wire = .hold →
      (∀ acts ∈ s.schedule, ∀ wire, Outside.rewire link wire ∉ acts) →
      ((link.channel (Station.platform log patience)).send w units).Stops s
        (fun _ s' => (s'.board.queues link).transmitted ++ (s'.board.queues link).tx =
            (s.board.queues link).transmitted ++ (s.board.queues link).tx ++ units.map w.cut ∧
          (s'.board.queues link).droppedTx = (s.board.queues link).droppedTx)
        (fun e s' => e = .hang ∧ (s'.board.queues link).tx.length = Queues.capacity ∧
          (s'.board.queues link).droppedTx = (s.board.queues link).droppedTx ∧
          ∃ k < units.length, (s'.board.queues link).transmitted ++ (s'.board.queues link).tx =
            (s.board.queues link).transmitted ++ (s.board.queues link).tx ++
              (units.take k).map w.cut)) ∧
    ∀ b : Board, b.Reachable → (b.queues link).wire = .hold →
      ((b.queues link).tx.length + units.length ≤ Queues.capacity →
        (link.channel (Board.platform patience)).send w units b = .ok () (b.setQueues
          { b.queues link with tx := (b.queues link).tx ++ units.map w.cut } link)) ∧
      (Queues.capacity < (b.queues link).tx.length + units.length →
        (link.channel (Board.platform patience)).send w units b = .error .hang (b.setQueues
          { b.queues link with tx := (b.queues link).tx ++
            (units.take (Queues.capacity - (b.queues link).tx.length)).map w.cut } link)) := by
  refine ⟨fun log s hreach hwire hschedule => ?_, fun b hreach hwire => ?_⟩
  · refine (Station.stops_send ⟨hreach.bounded, hwire, hschedule⟩ w units).mono ?_ ?_
    · exact fun _ s' h => ⟨h.line, h.dropped⟩
    · rintro e s' ⟨he, hlength, k, hk, h⟩
      exact ⟨he, hlength, h.dropped, k, hk, h.line⟩
  · have hbounded := hreach.bounded link
    have htaken := Queues.taken_hold hwire units.length
    constructor
    · intro hspace
      rw [Board.send_board hbounded, if_pos (by rw [htaken]; omega), Queues.transmitAll_hold hwire]
      rw [List.length_map]
      exact hspace
    · -- as many go in as there is room for
      intro hfull
      have hle := hbounded.tx
      have hmin : min units.length (Queues.capacity - (b.queues link).tx.length) =
          Queues.capacity - (b.queues link).tx.length := by omega
      rw [Board.send_board hbounded, if_neg (by rw [htaken]; omega), htaken, hmin,
        Queues.transmitAll_hold hwire]
      rw [List.length_map, List.length_take]
      omega

/-- A new board whose peer takes three units when the queue has been full for a while, and five more
soon after. -/
def slowPeer : Station Unit Unit where
  board := .new
  schedule := List.replicate 19 [] ++ [[.take .uart 3], [.send .uart 7#32], [.take .uart 5]]
  buffer := .new .byte 0
  rest := ()

theorem send_loses_nothing_slowPeer :
    (∃ s', (Link.uart.channel (Station.platform (fun _ => pure ()) 8)).send .byte
        (List.replicate 9 0x141#32 ++ [0x42#32]) slowPeer = .ok () s' ∧
      (s'.board.queues .uart).transmitted ++ (s'.board.queues .uart).tx =
        List.replicate 9 0x41#32 ++ [0x42#32]) ∧
    (Link.uart.channel (Board.platform 8)).send .byte (List.replicate 9 0x141#32) .new =
      .error .hang { uart := { tx := List.replicate 8 0x41#32 } } := by
  have hnew : Board.new.Reachable := ⟨[], rfl⟩
  constructor
  · have hreturns : (match (Link.uart.channel (Station.platform (fun _ => pure ()) 8)).send .byte
        (List.replicate 9 0x141#32 ++ [0x42#32]) slowPeer with
        | .ok _ _ => true
        | .error _ _ => false) = true := by decide +kernel
    have hstops := (send_loses_nothing .uart .byte (List.replicate 9 0x141#32 ++ [0x42#32]) 8).1
      (fun _ => pure ()) slowPeer hnew rfl (by simp [slowPeer])
    cases hsend : (Link.uart.channel (Station.platform (fun _ => pure ()) 8)).send .byte
        (List.replicate 9 0x141#32 ++ [0x42#32]) slowPeer with
    | ok _ s' => exact ⟨s', rfl, (hstops.of_ok hsend).1⟩
    | error e s' =>
      rw [hsend] at hreturns
      cases hreturns
  · exact ((send_loses_nothing (η := Unit) (τ := Unit) .uart .byte
      (List.replicate 9 0x141#32) 8).2 .new hnew rfl).2 (by decide)

end BoardSupport
