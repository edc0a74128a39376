import BoardSupport.Proofs.Calm
import BoardSupport.Proofs.ReceiveBuffer

/-!
How the receive threshold cuts what a peer sends into batches.

A peer sends unit after unit, and an interrupt is taken whenever one is asserted. Each time as
many units wait as the threshold says, one interrupt moves all of them into the buffer, so with a
threshold of `T` every `T` units make one batch and the rest is left waiting.
-/

namespace BoardSupport

namespace Queues

variable {q : Queues} {T : ℕ}

lemma isSet_pending : Irq.receive.isSet q.pending = q.receivePending := by
  unfold pending
  cases q.receivePending <;> cases q.transmitPending <;> decide

/-- The channel asks for service exactly when `T` units or more wait. -/
structure Armed (T : ℕ) (q : Queues) : Prop where
  receive : Irq.receive.isSet q.enable = true
  transmit : Irq.transmit.isSet q.enable = false
  threshold : q.rxThreshold.toNat = T
  pos : 0 < T

lemma Armed.receivePending (h : q.Armed T) : q.receivePending = decide (T ≤ q.rx.length) := by
  have hpos := h.pos
  rw [Queues.receivePending, h.receive, h.threshold]
  cases q.rx with
  | nil => simp; omega
  | cons u rest => simp

lemma Armed.pending_ne_zero (h : q.Armed T) (hT : T ≤ q.rx.length) : q.pending ≠ 0#32 := by
  have hrx : q.receivePending = true := by rw [h.receivePending]; simpa using hT
  rw [pending, hrx]
  cases q.transmitPending <;> decide

lemma Armed.pending_eq_zero (h : q.Armed T) (hT : q.rx.length < T) : q.pending = 0#32 := by
  have hrx : q.receivePending = false := by rw [h.receivePending]; simpa using hT
  have htx : q.transmitPending = false := by rw [transmitPending, h.transmit, Bool.false_and]
  rw [pending, hrx, htx]
  decide

end Queues

namespace Station

variable {η τ : Type} {link : Link} {v : View}
  {log : Log.Record → Proc (Station η τ) Unit} {patience T : ℕ}

/-! ### One batch -/

lemma yields_readUnit (w : Width) {u : Word} {rest : List Word} (hu : v.queues.rx = u :: rest) :
    Yields link v ((link.channel (platform log patience)).readUnit w) (w.cut u)
      { v with queues := { v.queues with rx := rest } } := by
  rw [Link.readUnit_eq]
  exact (yields_loadData hu).bind (yields_pure _)

/-- The units that wait first are taken, and those for which there is a place are written. -/
lemma yields_fill {start : ℕ} {units rest : List Word} (hrx : v.queues.rx = units ++ rest) :
    Yields link v
      (ReceiveBuffer.fill bufferCell
        (fun _ => (link.channel (platform log patience)).readUnit v.buffer.width)
        start units.length 0 0)
      (min units.length (v.buffer.capacity - start))
      { v with
        queues := { v.queues with rx := rest }
        buffer := v.buffer.writeFrom start units } := by
  intro s hs
  -- the view but for the buffer, with the units that are left still waiting
  refine (ReceiveBuffer.ends_fill_units bufferCell_lawful hs.buffer (M := fun taken s' => ∃ left,
    units = taken ++ left ∧ Shows link { v with
      queues := { v.queues with rx := left ++ rest }, buffer := s'.buffer } s') ?_
      ⟨units, rfl, ?_⟩).imp ?_
  · rintro taken s₁ hlt ⟨left, rfl, h₁⟩
    have hleft : left ≠ [] := by
      rintro rfl
      rw [List.append_nil] at hlt
      exact lt_irrefl _ hlt
    obtain ⟨u, left, rfl⟩ := List.exists_cons_of_ne_nil hleft
    refine (yields_readUnit v.buffer.width (by rfl) s₁ h₁).imp ?_
    rintro _ s₂ ⟨rfl, h₂⟩
    exact ⟨u, rfl, h₂.buffer, fun b => ⟨left, List.append_cons ..,
      h₂.calm, h₂.queues, h₂.arbiter, rfl, h₂.completions, h₂.phase⟩⟩
  · exact ⟨hs.calm, hs.queues.trans (by rw [← hrx]), hs.arbiter, rfl, hs.completions, hs.phase⟩
  · rintro k s' ⟨taken, hlength, ⟨left, rfl, h⟩, hb, rfl⟩
    obtain rfl : left = [] := by
      rw [List.length_append] at hlength
      exact List.length_eq_zero_iff.1 (by omega)
    rw [List.append_nil]
    exact ⟨rfl, h.calm, h.queues, h.arbiter, hb, h.completions, h.phase⟩

section

variable (hlog : ∀ r, Unseen link (log r))

include hlog

lemma yields_append (patience : ℕ) {units : List Word} (hrx : v.queues.rx = units) :
    ∃ k b, v.buffer.Took units b ∧ Yields link v
      (ReceiveBuffer.append (platform log patience) bufferCell units.length
        fun _ => (link.channel (platform log patience)).readUnit v.buffer.width)
      k { v with queues := { v.queues with rx := [] }, buffer := b } := by
  set room := v.buffer.capacity - v.buffer.count with hroom
  refine ⟨min units.length room, _, v.buffer.took_writeFrom units, ?_⟩
  have hfill : Yields link v
      (ReceiveBuffer.fill bufferCell
        (fun _ => (link.channel (platform log patience)).readUnit v.buffer.width)
        v.buffer.count units.length 0 0) (min units.length room)
      { v with
        queues := { v.queues with rx := [] }
        buffer := v.buffer.writeFrom v.buffer.count units } :=
    yields_fill (by rw [List.append_nil]; exact hrx)
  have hdropped : (v.buffer.writeFrom v.buffer.count units).dropped = v.buffer.dropped :=
    ReceiveBuffer.writeFrom_dropped _
  refine yields_readBuffer.bind (hfill.bind ?_)
  split
  · next hlt =>
    -- the units that found no place are counted
    refine (yields_updateBuffer _).bind ((hlog _ _).bind ((yields_updateBuffer _).bind
      ((yields_pure _).congr rfl ?_)))
    dsimp only
    rw [hdropped, show units.length - min units.length room = units.length - room by omega]
  · next hge =>
    refine (yields_updateBuffer _).bind ((yields_pure _).congr rfl ?_)
    rw [show units.length - room = 0 by omega, Nat.add_zero, ← hdropped]

lemma yields_handle (patience : ℕ) (hpending : v.queues.receivePending = true)
    (hlen : v.queues.rx.length < 2 ^ 32) (id : Word) :
    ∃ b, v.buffer.Took v.queues.rx b ∧ Yields link v
      ((reception (platform log patience) link).handle id) ()
      { v with
        queues := { v.queues with rx := [] }
        buffer := b
        completions := v.completions + 1 } := by
  obtain ⟨k, b, htook, happend⟩ := yields_append hlog patience (v := v) rfl
  refine ⟨b, htook, ?_⟩
  unfold Reception.handle
  refine yields_pendingIrqs.bind ?_
  rw [if_pos (Queues.isSet_pending.trans hpending)]
  refine yields_rxLength.bind (yields_readBuffer.bind ?_)
  rw [BitVec.toNat_ofNat, Nat.mod_eq_of_lt hlen]
  exact happend.bind ((yields_updateCompletions _).bind (yields_readCompletions.bind
    (yields_readBuffer.bind (hlog _ _))))

end

/-- A station that waits for its next batch of `T` units. -/
structure Ready (link : Link) (T : ℕ) (v : View) : Prop where
  queues : v.queues.Armed T
  arbiter : v.arbiter.Awaits link.source

/-- What is seen after a batch: all that waited is in the buffer. -/
def View.batch (link : Link) (v : View) (b : ReceiveBuffer) : View :=
  { v with
    queues := { v.queues with rx := [] }
    arbiter :=
      { v.arbiter with
        events := v.arbiter.events ++ [.claim link.source, .complete link.source] }
    buffer := b
    completions := v.completions + 1 }

lemma Ready.batch (hv : Ready link T v) (b : ReceiveBuffer) : Ready link T (v.batch link b) :=
  ⟨⟨hv.queues.receive, hv.queues.transmit, hv.queues.threshold, hv.queues.pos⟩,
    ⟨hv.arbiter.lt, hv.arbiter.enabled, hv.arbiter.above, hv.arbiter.claimed, hv.arbiter.raised⟩⟩

section

variable {table : SourceTable η} {serve : η → Word → Proc (Station η τ) Unit} {h : η}
  (hlog : ∀ r, Unseen link (log r))
  (hget : table.get? (BitVec.ofNat 32 link.source) = some h)
  (hserve : ∀ id, serve h id = (reception (platform log (patience + 1)) link).handle id)

include hlog hget hserve

lemma yields_serveClaim (hv : Ready link T v) (hT : T ≤ v.queues.rx.length)
    (hlen : v.queues.rx.length < 2 ^ 32) :
    ∃ b, v.buffer.Took v.queues.rx b ∧ Yields link
      { v with arbiter := v.arbiter.taken link.source }
      (SourceTable.serveClaim (platform log (patience + 1)) (.fixed table) serve
        (BitVec.ofNat 32 link.source)) ()
      (v.batch link b) := by
  have hid : (BitVec.ofNat 32 link.source).toNat = link.source := by cases link <;> rfl
  have hpending : v.queues.receivePending = true := by
    rw [hv.queues.receivePending]; simpa using hT
  obtain ⟨b, htook, hhandle⟩ := yields_handle hlog (patience + 1)
    (v := { v with arbiter := v.arbiter.taken link.source }) hpending hlen
    (BitVec.ofNat 32 link.source)
  refine ⟨b, htook, ?_⟩
  unfold SourceTable.serveClaim
  refine (hlog _ _).bind ((yields_readFixed table).bind ?_)
  rw [hget]
  dsimp only
  rw [hserve]
  refine hhandle.bind ((hlog _ _).bind ((yields_complete hlog _).congr rfl ?_))
  rw [hid]
  dsimp only
  rw [hv.arbiter.complete_taken]
  rfl

/-- One claim serves all that waits, and the next finds nothing. -/
lemma yields_process (hv : Ready link T v) (hT : T ≤ v.queues.rx.length)
    (hlen : v.queues.rx.length < 2 ^ 32) :
    ∃ b, v.buffer.Took v.queues.rx b ∧ Yields link v
      (SourceTable.process (platform log (patience + 1)) (.fixed table) serve) 1
      (v.batch link b) := by
  obtain ⟨b, htook, hserved⟩ := yields_serveClaim hlog hget hserve hv hT hlen
  refine ⟨b, htook, Yields.iterate (Yields.round (w := v.batch link b) (c := 1) ?_
    (Yields.last ?_))⟩
  · exact (yields_claim hlog hv.arbiter (hv.queues.pending_ne_zero hT)).bind
      (hserved.bind (yields_pure _))
  · -- the queue was emptied, so the next claim gives nothing
    have hready := hv.batch b
    exact (yields_claim_none hready.arbiter (hready.queues.pending_eq_zero hv.queues.pos)).bind
      (yields_pure _)

lemma yields_trap (hv : Ready link T v) (hidle : v.phase = .idle) (hT : T ≤ v.queues.rx.length)
    (hlen : v.queues.rx.length < 2 ^ 32) (address : ℕ) :
    ∃ b, v.buffer.Took v.queues.rx b ∧ Yields link v
      (trap (platform log (patience + 1)) table serve address) (.ok address) (v.batch link b) := by
  obtain ⟨b, htook, hprocess⟩ := yields_process hlog hget hserve
    (v := { v with phase := .dispatching }) ⟨hv.queues, hv.arbiter⟩ hT hlen
  have hclass : Trap.Cause.class? ⟨0x8000000b#32⟩ = some .external := by decide
  refine ⟨b, htook, ?_⟩
  unfold trap Trap.dispatch
  refine yields_readPhase.bind ?_
  rw [hidle, if_neg (by decide), hclass]
  dsimp only
  rw [if_pos rfl]
  refine (yields_writePhase _).bind ((hlog _ _).bind (hprocess.discard.bind
    ((yields_updatePhase _).bind ((yields_pure _).congr rfl ?_))))
  unfold View.batch
  rw [hidle]
  rfl

end

/-! ### A whole payload -/

/-- The peer sends a unit. The result says whether it found a place. -/
def send (link : Link) (unit : Word) : Proc (Station η τ) Bool := do
  let s ← get
  set (s.act (.send link unit))
  return (s.board.peerSend link unit).1

/-- Take an interrupt if one is asserted. -/
def poll (interrupt : Proc (Station η τ) Unit) : Proc (Station η τ) Unit := do
  if (← get).board.interruptAsserted then
    interrupt

/-- The peer sends unit after unit, and each time an interrupt is asserted it is taken. -/
def deliver (interrupt : Proc (Station η τ) Unit) (link : Link) :
    List Word → Proc (Station η τ) (List Bool)
  | [] => pure []
  | unit :: rest => do
    let accepted ← send link unit
    poll interrupt
    return accepted :: (← deliver interrupt link rest)

/-- What was seen before and after batches of `T` were cut from what waited and what came. -/
structure Batched (link : Link) (T : ℕ) (units : List Word) (v v' : View) : Prop where
  ready : Ready link T v'
  idle : v'.phase = .idle
  rx : v'.queues.rx = units.drop (T * (units.length / T))
  buffer : v.buffer.Took (units.take (T * (units.length / T))) v'.buffer
  completions : v'.completions = v.completions + units.length / T
  events : v'.arbiter.events = v.arbiter.events ++
    (List.replicate (units.length / T) [.claim link.source, .complete link.source]).flatten

lemma batched_of_lt (hv : Ready link T v) (hidle : v.phase = .idle)
    (hlt : v.queues.rx.length < T) : Batched link T v.queues.rx v v := by
  have hdiv : v.queues.rx.length / T = 0 := Nat.div_eq_of_lt hlt
  refine ⟨hv, hidle, ?_, ?_, ?_, ?_⟩ <;> rw [hdiv]
  · simp
  · simpa using ReceiveBuffer.took_nil _
  · simp
  · simp

/-- A full batch in front makes one batch more. -/
lemma Batched.cons {batch units : List Word} {b : ReceiveBuffer} {v' : View}
    (h : Batched link T units (v.batch link b) v') (hpos : 0 < T) (hlen : batch.length = T)
    (htook : v.buffer.Took batch b) : Batched link T (batch ++ units) v v' := by
  have hdiv : (batch ++ units).length / T = units.length / T + 1 := by
    rw [List.length_append, hlen, Nat.add_comm, Nat.add_div_right _ hpos]
  have hmul : T * (units.length / T + 1) = batch.length + T * (units.length / T) := by
    rw [hlen, Nat.mul_add, Nat.mul_one, Nat.add_comm]
  refine ⟨h.ready, h.idle, ?_, ?_, ?_, ?_⟩ <;> rw [hdiv]
  · rw [h.rx, hmul, List.drop_length_add_append]
  · rw [hmul, List.take_length_add_append]
    exact htook.trans h.buffer
  · rw [h.completions]
    show v.completions + 1 + _ = _
    omega
  · rw [h.events, List.replicate_succ, List.flatten_cons]
    simp [View.batch]

lemma yields_send (hroom : v.queues.rx.length < Queues.capacity) (unit : Word) :
    Yields link v (send link unit : Proc (Station η τ) Bool) true
      { v with queues := { v.queues with rx := v.queues.rx ++ [unit] } } := by
  intro s hs
  have hlt : (s.board.queues link).rx.length < Queues.capacity := by rw [hs.queues]; exact hroom
  simp only [send, Proc.ends_bind, Proc.ends_get, Proc.ends_set, Proc.ends_pure]
  refine ⟨decide_eq_true hlt, hs.saw ?_ ?_ rfl rfl rfl⟩
  · simp [Board.peerSend, Queues.arrive, hs.queues, hroom]
  · simp [Board.peerSend, hs.arbiter]

/-- An interrupt is asserted exactly when a batch is complete. -/
lemma Shows.interruptAsserted {s : Station η τ} (hs : Shows link v s) (hv : Ready link T v) :
    s.board.interruptAsserted = decide (T ≤ v.queues.rx.length) := by
  rw [Board.interruptAsserted, Board.present?, hs.arbiter, hv.arbiter.present?_isSome,
    hs.sourcePending hv.arbiter.raised]
  by_cases hT : T ≤ v.queues.rx.length
  · simpa [hT] using hv.queues.pending_ne_zero hT
  · simpa [hT] using hv.queues.pending_eq_zero (by omega)

lemma yields_poll {interrupt : Proc (Station η τ) Unit} (hv : Ready link T v)
    (hT : T ≤ v.queues.rx.length) {v' : View} (h : Yields link v interrupt () v') :
    Yields link v (poll interrupt) () v' := by
  intro s hs
  rw [poll, Proc.ends_bind, Proc.ends_get,
    if_pos (by rw [hs.interruptAsserted hv]; exact decide_eq_true hT)]
  exact h s hs

lemma yields_poll_of_lt {interrupt : Proc (Station η τ) Unit} (hv : Ready link T v)
    (hT : v.queues.rx.length < T) : Yields link v (poll interrupt) () v := by
  intro s hs
  rw [poll, Proc.ends_bind, Proc.ends_get,
    if_neg (by rw [hs.interruptAsserted hv]; simpa using hT), Proc.ends_pure]
  exact ⟨rfl, hs⟩

section

variable {table : SourceTable η} {serve : η → Word → Proc (Station η τ) Unit} {h : η}
  (hlog : ∀ r, Unseen link (log r))
  (hget : table.get? (BitVec.ofNat 32 link.source) = some h)
  (hserve : ∀ id, serve h id = (reception (platform log (patience + 1)) link).handle id)

include hlog hget hserve

lemma yields_deliver (address : ℕ) (units : List Word) (hv : Ready link T v)
    (hidle : v.phase = .idle) (hlt : v.queues.rx.length < T) (hT : T ≤ Queues.capacity) :
    ∃ v', Batched link T (v.queues.rx ++ units) v v' ∧ Yields link v
      (deliver (discard (trap (platform log (patience + 1)) table serve address)) link units)
      (List.replicate units.length true) v' := by
  induction units generalizing v with
  | nil => exact ⟨v, by rw [List.append_nil]; exact batched_of_lt hv hidle hlt, yields_pure _⟩
  | cons unit rest ih =>
    set v₁ : View := { v with queues := { v.queues with rx := v.queues.rx ++ [unit] } } with hv₁
    have hready : Ready link T v₁ :=
      ⟨⟨hv.queues.receive, hv.queues.transmit, hv.queues.threshold, hv.queues.pos⟩, hv.arbiter⟩
    have hlen : v₁.queues.rx.length = v.queues.rx.length + 1 := by simp [hv₁]
    have hunits : v.queues.rx ++ unit :: rest = v₁.queues.rx ++ rest := by simp [hv₁]
    have hsend : Yields link v (send link unit : Proc (Station η τ) Bool) true v₁ :=
      yields_send (by omega) unit
    rcases Nat.lt_or_ge v₁.queues.rx.length T with hmore | hfull
    · -- the batch is not complete
      obtain ⟨v', hbatched, hrest⟩ := ih hready hidle hmore
      refine ⟨v', hunits ▸ ?_, hsend.bind ((yields_poll_of_lt hready hmore).bind
        (hrest.bind (yields_pure _)))⟩
      exact ⟨hbatched.1, hbatched.2, hbatched.3, hbatched.4, hbatched.5, hbatched.6⟩
    · -- the unit completes a batch, and nothing waits after it
      have hcap : Queues.capacity < 2 ^ 32 := by decide
      obtain ⟨b, htook, htrap⟩ :=
        yields_trap hlog hget hserve hready hidle hfull (by omega) address
      obtain ⟨v', hbatched, hrest⟩ := ih (hready.batch b) hidle hv.queues.pos
      have hcons := hbatched.cons hv.queues.pos (by omega) htook
      refine ⟨v', hunits ▸ ?_, hsend.bind ((yields_poll hready hfull htrap.discard).bind
        (hrest.bind (yields_pure _)))⟩
      exact ⟨hcons.1, hcons.2, hcons.3, hcons.4, hcons.5, hcons.6⟩

end

/-! ### From reset -/

/-- Let the channel interrupt at `t` units, with its source configured above the level. -/
def listen {σ : Type} (p : Platform σ) (link : Link) (level : Word) (config : SourceConfig)
    (t : Word) : Proc σ Unit := do
  Controller.setThreshold p level
  Controller.configure p (BitVec.ofNat 32 link.source) config
  Controller.enable p (BitVec.ofNat 32 link.source)
  (link.channel p).setRxIrq true t

/-- A station fresh out of reset. -/
def fresh (buffer : ReceiveBuffer) (rest : τ) : Station η τ := { board := .new, buffer, rest }

/-- How many units make a batch when `t` are asked for. -/
def batchSize (t : Word) : ℕ := (clampRx t (BitVec.ofNat 32 Queues.capacity)).toNat

lemma batchSize_pos (t : Word) : 0 < batchSize t := by
  unfold batchSize clampRx
  split
  · next ht => bv_omega
  · decide

lemma batchSize_le (t : Word) : batchSize t ≤ Queues.capacity := by
  unfold batchSize clampRx
  split
  · next ht => exact BitVec.le_def.1 ht.2
  · decide

lemma yields_listen (hlog : ∀ r, Unseen link (log r)) (patience : ℕ) {level : Word}
    {config : SourceConfig}
    (hlevel : level < config.priority) (t : Word) (buffer : ReceiveBuffer) :
    ∃ v, Yields link ⟨{}, {}, buffer, 0, .idle⟩
        (listen (platform log patience) link level config t) () v ∧
      Ready link (batchSize t) v ∧
      v.queues.rx = [] ∧ v.arbiter.events = [] ∧ v.buffer = buffer ∧ v.completions = 0 ∧
      v.phase = .idle := by
  have hid : (BitVec.ofNat 32 link.source).toNat < Source.count := by cases link <;> decide
  have hold : (({} : Arbiter).enable[(BitVec.ofNat 32 link.source).toNat / 32]?) = some 0#32 := by
    cases link <;> rfl
  refine ⟨_, (yields_setThreshold hlog level).bind ((yields_configure hlog hid config).bind
    ((yields_enable hlog hid hold).bind
      (yields_setRxIrq hlog t))), ⟨⟨?_, ?_, rfl, batchSize_pos t⟩, ⟨?_, ?_, ?_, rfl, rfl⟩⟩,
    rfl, rfl, rfl, rfl, rfl⟩
  · show Irq.receive.isSet (Irq.receive.putBool true 0#32) = true
    decide
  · show Irq.transmit.isSet (Irq.receive.putBool true 0#32) = false
    decide
  · cases link <;> decide
  · simp only [Arbiter.isEnabled]
    cases link <;> decide +kernel
  · simp only [Arbiter.priorityOf]
    cases link <;> exact hlevel

lemma shows_fresh (buffer : ReceiveBuffer) (rest : τ) :
    Shows link ⟨{}, {}, buffer, 0, .idle⟩ (fresh buffer rest : Station η τ) :=
  ⟨rfl, by cases link <;> rfl, rfl, rfl, rfl, rfl⟩

/-- **Batching.** From reset, with the receive interrupt set to `t` units, every unit of a payload
is accepted. Each full batch is served by one interrupt, which is one claim and its completion; the
units after the last full batch wait. Of the others the buffer has the first and counts the rest. -/
theorem deliver_batches (link : Link) (log : Log.Record → Proc (Station η τ) Unit) (patience : ℕ)
    (hlog : ∀ r, Unseen link (log r)) (table : SourceTable η)
    (serve : η → Word → Proc (Station η τ) Unit) (h : η)
    (hget : table.get? (BitVec.ofNat 32 link.source) = some h)
    (hserve : ∀ id, serve h id = (reception (platform log (patience + 1)) link).handle id)
    (level : Word) (config : SourceConfig) (hlevel : level < config.priority) (t : Word)
    (width : Width) (capacity : ℕ) (rest : τ) (address : ℕ) (units : List Word) :
    ∃ s', (do
        listen (platform log (patience + 1)) link level config t
        deliver (discard (trap (platform log (patience + 1)) table serve address)) link units)
          (fresh (.new width capacity) rest) = .ok (List.replicate units.length true) s' ∧
      s'.completions = units.length / batchSize t ∧
      s'.rx link = units.drop (units.length - units.length % batchSize t) ∧
      s'.buffer.received =
        (units.take (min capacity (batchSize t * (units.length / batchSize t)))).map width.cut ∧
      s'.buffer.dropped = batchSize t * (units.length / batchSize t) -
        min capacity (batchSize t * (units.length / batchSize t)) ∧
      s'.board.arbiter.events = (List.replicate (units.length / batchSize t)
        [.claim link.source, .complete link.source]).flatten ∧
      s'.phase = .idle := by
  obtain ⟨v, hlisten, hready, hrx, hevents, hbuffer, hzero, hidle⟩ :=
    yields_listen hlog (patience + 1) hlevel t (.new width capacity)
  obtain ⟨v', hbatched, hdeliver⟩ := yields_deliver hlog hget hserve address units hready hidle
    (by rw [hrx]; exact batchSize_pos t) (batchSize_le t)
  rw [hrx, List.nil_append] at hbatched
  obtain ⟨results, s', hrun, rfl, hs'⟩ := (Yields.bind
    (f := fun _ => deliver (discard (trap _ table serve address)) link units) hlisten hdeliver
    _ (shows_fresh (.new width capacity) rest)).returns
  have htook := hbatched.buffer
  rw [hbuffer] at htook
  have hroom : (ReceiveBuffer.new width capacity).capacity -
      (ReceiveBuffer.new width capacity).count = capacity := by
    simp [ReceiveBuffer.capacity, ReceiveBuffer.new]
  have hle : batchSize t * (units.length / batchSize t) ≤ units.length := Nat.mul_div_le _ _
  refine ⟨s', hrun, ?_, ?_, ?_, ?_, ?_, ?_⟩
  · rw [hs'.completions, hbatched.completions, hzero, Nat.zero_add]
  · show (s'.board.queues link).rx = _
    have hmod := Nat.div_add_mod units.length (batchSize t)
    rw [hs'.queues, hbatched.rx,
      show units.length - units.length % batchSize t =
        batchSize t * (units.length / batchSize t) by omega]
  · rw [hs'.buffer, htook.received, hroom, List.take_take]
    simp [ReceiveBuffer.received, ReceiveBuffer.new]
  · rw [hs'.buffer, htook.dropped, hroom, List.length_take, Nat.min_eq_left hle]
    simp only [ReceiveBuffer.new]
    omega
  · rw [hs'.arbiter, hbatched.events, hevents, List.nil_append]
  · rw [hs'.phase, hbatched.idle]

/-- A log that only counts its records. -/
def countRecord : Log.Record → Proc (Station η ℕ) Unit := fun _ =>
  modify fun (s : Station η ℕ) => { s with rest := s.rest + 1 }

lemma countRecord_unseen (r : Log.Record) : Unseen link (countRecord (η := η) r) :=
  fun _ _ hs => (Proc.ends_modify _).2
    ⟨rfl, hs.calm, hs.queues, hs.arbiter, hs.buffer, hs.completions, hs.phase⟩

/-- Eight units at a threshold of three, into a buffer with room for four. -/
theorem deliver_batches_spi0 :
    ∃ s', (do
        listen (platform countRecord 1) .spi0 2#32 { priority := 5#32 } 3#32
        deliver (discard (trap (platform countRecord 1)
          ⟨(Vector.replicate _ none).setIfInBounds Source.spi0 (some ())⟩
          (fun _ => (reception (platform countRecord 1) .spi0).handle) 0)) .spi0
          [1#32, 2#32, 3#32, 4#32, 0x105#32, 6#32, 7#32, 8#32])
          (fresh (.new .byte 4) 0 : Station Unit ℕ) = .ok (List.replicate 8 true) s' ∧
      s'.completions = 2 ∧ s'.rx .spi0 = [7#32, 8#32] ∧
      s'.buffer.received = [1#32, 2#32, 3#32, 4#32] ∧ s'.buffer.dropped = 2 ∧
      s'.board.arbiter.events = [.claim 1, .complete 1, .claim 1, .complete 1] ∧
      s'.phase = .idle := by
  obtain ⟨s', hrun, hcompletions, hrx, hreceived, hdropped, hevents, hphase⟩ :=
    deliver_batches .spi0 countRecord 0 countRecord_unseen
      ⟨(Vector.replicate _ none).setIfInBounds Source.spi0 (some ())⟩
      (fun _ => (reception (platform countRecord 1) .spi0).handle) () (by decide) (fun _ => rfl)
      2#32 { priority := 5#32 } (by decide) 3#32 .byte 4 0 0
      [1#32, 2#32, 3#32, 4#32, 0x105#32, 6#32, 7#32, 8#32]
  exact ⟨s', hrun, hcompletions.trans (by decide), hrx.trans (by decide),
    hreceived.trans (by decide), hdropped.trans (by decide), hevents.trans (by decide), hphase⟩

end Station

end BoardSupport
