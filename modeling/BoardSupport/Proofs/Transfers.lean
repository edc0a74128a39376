import BoardSupport.Proofs.Operations
import BoardSupport.Proofs.ReceiveBuffer

/-!
Drivers look before they touch a queue.

A transfer occupies one side of a channel, the transmit or the receive queue. Whatever else goes on
between two of its accesses, peers and other transfers included, does not lengthen a transmit queue
that is occupied, and does not shorten a receive queue that is. So a length that was read stays
good until the access that it was read for.
-/

namespace BoardSupport

/-- The queue of a channel that a transfer works on. -/
inductive Side where
  | tx
  | rx
  deriving DecidableEq

/-- A board, what came of it so far, and whatever else there is to the state. -/
structure Exchange (τ : Type) where
  board : Board
  /-- The board after each access and each act of the world outside, in order. -/
  seen : List Board := []
  rest : τ

namespace Exchange

variable {τ α β : Type}

def saw (s : Exchange τ) (board : Board) : Exchange τ := { s with board, seen := s.seen ++ [board] }

def act (s : Exchange τ) (o : Outside) : Exchange τ := s.saw (s.board.act o)

def load (address : ℕ) (w : Width) : Proc (Exchange τ) Word := fun s =>
  match s.board.load address w with
  | .ok (v, board) => .ok v (s.saw board)
  | .error f => .error (.fault f) s

def store (address : ℕ) (w : Width) (v : Word) : Proc (Exchange τ) Unit := fun s =>
  .ok () (s.saw (s.board.store address w v))

/-- What a transfer runs on: something else is done before each of its accesses. -/
def platform (meanwhile : Proc (Exchange τ) Unit) (log : Log.Record → Proc (Exchange τ) Unit)
    (patience : Exchange τ → ℕ) : Platform (Exchange τ) :=
  Platform.before { load, store, log, patience } meanwhile

/-- A place in the rest of the state. -/
def within (c : Cell τ β) : Cell (Exchange τ) β :=
  ⟨fun s => c.get s.rest, fun b s => { s with rest := c.put b s.rest }⟩

end Exchange

/-- A call of a channel's driver, by what it returns. -/
inductive Transfer (τ : Type) : Type → Type where
  | send (w : Width) (units : List Word) : Transfer τ Unit
  | recv (w : Width) (n : ℕ) : Transfer τ (List Word)
  | trySend (w : Width) (unit : Word) : Transfer τ Bool
  | tryRecv (w : Width) : Transfer τ (Option Word)
  | handle (buffer : Cell τ ReceiveBuffer) (completions : Cell τ ℕ) (id : Word) : Transfer τ Unit

namespace Transfer

variable {τ : Type}

def side : {α : Type} → Transfer τ α → Side
  | _, .send .. => .tx
  | _, .recv .. => .rx
  | _, .trySend .. => .tx
  | _, .tryRecv .. => .rx
  | _, .handle .. => .rx

def perform (p : Platform (Exchange τ)) (link : Link) :
    {α : Type} → Transfer τ α → Proc (Exchange τ) α
  | _, .send w units => (link.channel p).send w units
  | _, .recv w n => (link.channel p).recv w n
  | _, .trySend w unit => (link.channel p).trySend w unit
  | _, .tryRecv w => (link.channel p).tryRecv w
  | _, .handle buffer completions id =>
    Reception.handle ⟨link.channel p, Exchange.within buffer, Exchange.within completions⟩ id

end Transfer

namespace Exchange

/-- What may go on while some sides are occupied: the world outside acts, registers other than the
queues' own are accessed, and transfers run on sides that are free. While a transfer runs, its own
side is occupied for what goes on between its accesses. -/
inductive Activity {τ : Type} : List (Link × Side) → {α : Type} → Proc (Exchange τ) α → Prop where
  | pure {busy : List (Link × Side)} {α : Type} (a : α) : Activity busy (pure a : Proc _ α)
  | bind {busy : List (Link × Side)} {α β : Type} {x : Proc (Exchange τ) α}
      {f : α → Proc (Exchange τ) β} (hx : Activity busy x) (hf : ∀ a, Activity busy (f a)) :
      Activity busy (x >>= f)
  | get {busy : List (Link × Side)} : Activity busy (get : Proc _ (Exchange τ))
  | elsewhere {busy : List (Link × Side)} (f : τ → τ) :
      Activity busy (modify fun s => { s with rest := f s.rest } : Proc _ Unit)
  | halt {busy : List (Link × Side)} {α : Type} (e : Halt)
      (he : ∀ address, e ≠ .fault (.emptyQueueRead address)) :
      Activity busy (throw e : Proc _ α)
  | outside {busy : List (Link × Side)} (o : Outside) : Activity busy (modify (act · o))
  | load {busy : List (Link × Side)} (address : ℕ) (w : Width)
      (h : ∀ link : Link, address ≠ link.dataAddress) : Activity busy (load address w)
  | store {busy : List (Link × Side)} (address : ℕ) (w : Width) (v : Word)
      (hdata : ∀ link : Link, address ≠ link.base + (link.layout.tx + QueueRegister.data))
      (hclear : ∀ link : Link, address ≠ link.base + (link.layout.rx + QueueRegister.clear)) :
      Activity busy (store address w v)
  | transfer {busy : List (Link × Side)} {α : Type} {link : Link} {t : Transfer τ α}
      {meanwhile : Proc (Exchange τ) Unit} {log : Log.Record → Proc (Exchange τ) Unit}
      (patience : Exchange τ → ℕ) (hfree : (link, t.side) ∉ busy)
      (hmeanwhile : Activity ((link, t.side) :: busy) meanwhile)
      (hlog : ∀ r, Activity ((link, t.side) :: busy) (log r)) :
      Activity busy (t.perform (platform meanwhile log patience) link)

end Exchange

/-! ### What is done to the queues -/

/-- The length of the queue on that side changed at most in the way that is harmless to a transfer
there. -/
def Queues.Spared : Side → Queues → Queues → Prop
  | .tx, q, q' => q'.tx.length ≤ q.tx.length
  | .rx, q, q' => q.rx.length ≤ q'.rx.length

namespace Queues

variable {q q' : Queues}

lemma spared_refl (side : Side) (q : Queues) : Spared side q q := by
  cases side <;> exact le_rfl

lemma Spared.trans {side : Side} {q'' : Queues} (h : Spared side q q') (h' : Spared side q' q'') :
    Spared side q q'' := by
  cases side
  · exact Nat.le_trans h' h
  · exact Nat.le_trans h h'

lemma arrive_tx (q : Queues) (unit : Word) : (q.arrive unit).tx = q.tx := by
  unfold arrive
  split <;> rfl

lemma arrive_rx_le (q : Queues) (unit : Word) : q.rx.length ≤ (q.arrive unit).rx.length := by
  unfold arrive
  split
  · simp
  · exact le_rfl

lemma arrive_droppedTx (q : Queues) (unit : Word) : (q.arrive unit).droppedTx = q.droppedTx := by
  unfold arrive
  split <;> rfl

lemma transmit_rx_le (q : Queues) (unit : Word) : q.rx.length ≤ (q.transmit unit).rx.length := by
  unfold transmit
  split
  · exact le_rfl
  · split
    · exact le_rfl
    · exact le_rfl
    · exact arrive_rx_le { q with transmitted := q.transmitted ++ [unit] } unit

/-- A unit is lost only at a full queue. -/
lemma transmit_droppedTx (h : q.tx.length < capacity) (unit : Word) :
    (q.transmit unit).droppedTx = q.droppedTx := by
  unfold transmit
  rw [if_neg h.ne]
  split
  · rfl
  · rfl
  · exact arrive_droppedTx { q with transmitted := q.transmitted ++ [unit] } unit

end Queues

namespace Board

variable {busy : List (Link × Side)} {b b' : Board} {link : Link}

/-- From `b` to `b'` no queue grew over its capacity, no unit was written to a full queue, and the
sides that are occupied were spared. -/
structure Treated (busy : List (Link × Side)) (b b' : Board) : Prop where
  bounded : b.Bounded → b'.Bounded
  dropped : ∀ link, (b'.queues link).droppedTx = (b.queues link).droppedTx
  spared : ∀ link side, (link, side) ∈ busy → Queues.Spared side (b.queues link) (b'.queues link)

instance : IsPreorder Board (Treated busy) where
  refl _ := ⟨id, fun _ => rfl, fun _ side _ => Queues.spared_refl side _⟩
  trans _ _ _ h h' := ⟨h'.bounded ∘ h.bounded, fun link => (h'.dropped link).trans (h.dropped link),
    fun link side hmem => (h.spared link side hmem).trans (h'.spared link side hmem)⟩

lemma Treated.of_subset {some : List (Link × Side)} (h : Treated busy b b') (hsub : some ⊆ busy) :
    Treated some b b' :=
  ⟨h.bounded, h.dropped, fun link side hmem => h.spared link side (hsub hmem)⟩

lemma treated_of_queues (h : ∀ link, b'.queues link = b.queues link) : Treated busy b b' where
  bounded hb link := by
    rw [h]
    exact hb link
  dropped link := by rw [h]
  spared link side _ := by
    rw [h]
    exact Queues.spared_refl side _

lemma treated_setQueues {q : Queues} (hbounded : (b.queues link).Bounded → q.Bounded)
    (hdropped : q.droppedTx = (b.queues link).droppedTx)
    (hspared : ∀ side, (link, side) ∈ busy → Queues.Spared side (b.queues link) q) :
    Treated busy b (b.setQueues q link) where
  bounded hb := hb.setQueues (hbounded (hb link)) link
  dropped l := by
    by_cases hl : l = link
    · subst hl
      rw [queues_setQueues, hdropped]
    · rw [queues_setQueues_of_ne _ _ hl]
  spared l side hmem := by
    by_cases hl : l = link
    · subst hl
      rw [queues_setQueues]
      exact hspared side hmem
    · rw [queues_setQueues_of_ne _ _ hl]
      exact Queues.spared_refl side _

/-- The world outside spares every side. -/
lemma treated_act (b : Board) (o : Outside) : Treated busy b (b.act o) := by
  cases o with
  | send link unit =>
    refine treated_setQueues (·.arrive unit) (Queues.arrive_droppedTx _ unit) fun side _ => ?_
    cases side with
    | tx => exact (congrArg List.length (Queues.arrive_tx _ unit)).le
    | rx => exact Queues.arrive_rx_le _ unit
  | take link n =>
    refine treated_setQueues (·.drain n) rfl fun side _ => ?_
    cases side with
    | tx =>
      show ((b.queues link).tx.drop n).length ≤ _
      rw [List.length_drop]
      exact Nat.sub_le _ _
    | rx => exact le_rfl
  | rewire link wire =>
    refine treated_setQueues (fun h => ⟨h.tx, h.rx⟩) rfl fun side _ => ?_
    cases side <;> exact le_rfl
  | request id =>
    rw [act_request]
    exact treated_of_queues fun link => queues_arbiter ..

lemma treated_load {a : ℕ} {w : Width} {v : Word} (h : ∀ link : Link, a ≠ link.dataAddress)
    (hload : b.load a w = .ok (v, b')) : Treated busy b b' := by
  rcases load_cases hload with ⟨-, -, rfl⟩ | ⟨-, -, rfl⟩ | ⟨link, -, -, ha, -⟩
  · exact refl_of _ _
  · exact treated_of_queues fun link => queues_arbiter ..
  · exact absurd ha (h link)

lemma treated_store {a : ℕ}
    (hdata : ∀ link : Link, a ≠ link.base + (link.layout.tx + QueueRegister.data))
    (hclear : ∀ link : Link, a ≠ link.base + (link.layout.rx + QueueRegister.clear)) (w : Width)
    (v : Word) : Treated busy b (b.store a w v) := by
  rcases store_cases b a w v with ⟨o, arbiter, -, -, hs⟩ | ⟨link, o, q, hplace, hq, hs⟩ | ⟨-, hs⟩
  · rw [hs]
    exact treated_of_queues fun link => queues_arbiter ..
  · -- a register of a channel, but none that sends a unit or clears what came
    have ha := eq_of_place_channel hplace
    have hdata : o ≠ link.layout.tx + QueueRegister.data := by
      rintro rfl
      exact hdata link ha
    have hclear : o ≠ link.layout.rx + QueueRegister.clear := by
      rintro rfl
      exact hclear link ha
    rw [hs]
    refine treated_setQueues (·.write hq) ?_ fun side _ => ?_
    all_goals
      unfold Queues.write? at hq
      rw [if_neg hdata, if_neg hclear] at hq
      split_ifs at hq <;> cases hq
    any_goals rfl
    all_goals cases side
    any_goals exact le_rfl
    exact Nat.zero_le _
  · exact treated_of_queues hs

/-- A unit goes to a transmit queue that is not full. -/
lemma treated_transmit (hfree : (link, .tx) ∉ busy)
    (hroom : (b.queues link).tx.length < Queues.capacity) (v : Word) :
    Treated busy b (b.store (link.base + (link.layout.tx + QueueRegister.data)) .word v) := by
  have hw : (b.queues link).write? link.layout (link.layout.tx + QueueRegister.data) v =
      some ((b.queues link).transmit v) := by cases link <;> rfl
  rw [store_channel (by cases link <;> decide) hw]
  refine treated_setQueues (·.transmit v) (Queues.transmit_droppedTx hroom v) fun side hmem => ?_
  cases side with
  | tx => exact absurd hmem hfree
  | rx => exact Queues.transmit_rx_le _ v

/-- The first unit is taken from a receive queue that is not empty. -/
lemma treated_take {unit : Word} {q : Queues} (hfree : (link, .rx) ∉ busy)
    (hq : (b.queues link).take? = some (unit, q)) : Treated busy b (b.setQueues q link) := by
  have hq' := hq
  unfold Queues.take? at hq'
  split at hq'
  · cases hq'
  · cases hq'
    refine treated_setQueues (·.take hq) rfl fun side hmem => ?_
    cases side with
    | tx => exact le_rfl
    | rx => exact absurd hmem hfree

end Board

/-! ### Procedures that treat the queues well -/

namespace Exchange

variable {τ α β : Type} {busy : List (Link × Side)} {s s' s'' : Exchange τ}

/-- All that was seen on the way from `s` to `s'` was treated well, and so was what came out. -/
def Treated (busy : List (Link × Side)) (s s' : Exchange τ) : Prop :=
  s.board.Treated busy s'.board ∧
    ∃ t, s'.seen = s.seen ++ t ∧ ∀ b ∈ t, s.board.Treated [] b

lemma Treated.trans (h : Treated busy s s') (h' : Treated busy s' s'') : Treated busy s s'' := by
  obtain ⟨hb, t, ht, hseen⟩ := h
  obtain ⟨hb', t', ht', hseen'⟩ := h'
  refine ⟨trans_of _ hb hb', t ++ t', by rw [ht', ht, List.append_assoc], fun b hmem => ?_⟩
  rcases List.mem_append.1 hmem with hmem | hmem
  · exact hseen b hmem
  · exact trans_of _ (hb.of_subset (List.nil_subset _)) (hseen' b hmem)

lemma treated_of_eq (hb : s'.board = s.board) (hseen : s'.seen = s.seen) : Treated busy s s' := by
  refine ⟨?_, [], by rw [hseen, List.append_nil], fun b hmem => by cases hmem⟩
  rw [hb]
  exact refl_of _ _

lemma treated_saw {b : Board} (h : s.board.Treated busy b) : Treated busy s (s.saw b) := by
  refine ⟨h, [b], rfl, fun b' hmem => ?_⟩
  rw [List.mem_singleton.1 hmem]
  exact h.of_subset (List.nil_subset _)

/-- From `s`, where no queue is too long, the procedure ends with `Q`. It treats the queues well
also where it halts, and it does not read an empty queue. -/
def Goes (busy : List (Link × Side)) (x : Proc (Exchange τ) α) (s : Exchange τ)
    (Q : α → Exchange τ → Prop) : Prop :=
  s.board.Bounded → x.Stops s (fun a s' => Treated busy s s' ∧ Q a s')
    fun e s' => (∀ address, e ≠ .fault (.emptyQueueRead address)) ∧ Treated busy s s'

/-- From everywhere the procedure treats the queues well. -/
abbrev Sparing (busy : List (Link × Side)) (x : Proc (Exchange τ) α) : Prop :=
  ∀ s, Goes busy x s fun _ _ => True

variable {Q : α → Exchange τ → Prop}

lemma Goes.imp {x : Proc (Exchange τ) α} {Q' : α → Exchange τ → Prop} (h : Goes busy x s Q)
    (hQ : ∀ a s', s'.board.Bounded → Q a s' → Q' a s') : Goes busy x s Q' := fun hb =>
  (h hb).mono (fun a s' h' => ⟨h'.1, hQ a s' (h'.1.1.bounded hb) h'.2⟩) fun _ _ h' => h'

lemma Goes.bind {x : Proc (Exchange τ) α} {f : α → Proc (Exchange τ) β}
    {Q' : β → Exchange τ → Prop} (hx : Goes busy x s Q)
    (hf : ∀ a s', Q a s' → Goes busy (f a) s' Q') : Goes busy (x >>= f) s Q' := by
  intro hb
  rw [Proc.stops_bind]
  refine (hx hb).mono (fun a s₁ h₁ => ?_) fun _ _ h => h
  refine (hf a s₁ h₁.2 (h₁.1.1.bounded hb)).mono (fun b s₂ h₂ => ?_) fun e s₂ h₂ => ?_
  · exact ⟨h₁.1.trans h₂.1, h₂.2⟩
  · exact ⟨h₂.1, h₁.1.trans h₂.2⟩

lemma goes_pure (a : α) (h : Q a s) : Goes busy (pure a) s Q := fun _ =>
  (Proc.stops_pure a).2 ⟨treated_of_eq rfl rfl, h⟩

lemma goes_modify {f : Exchange τ → Exchange τ} {Q : Unit → Exchange τ → Prop}
    (h : Treated busy s (f s)) (hQ : Q () (f s)) : Goes busy (modify f) s Q := fun _ =>
  (Proc.stops_modify f).2 ⟨h, hQ⟩

lemma goes_readRest (c : Cell τ β) : Goes busy (within c).read s fun _ s' => s'.board = s.board :=
  fun _ => (within c).stops_read.2 ⟨treated_of_eq rfl rfl, rfl⟩

lemma goes_updateRest (c : Cell τ β) (f : β → β) :
    Goes busy ((within c).update f) s fun _ s' => s'.board = s.board := fun _ =>
  ((within c).stops_update f).2 ⟨treated_of_eq rfl rfl, rfl⟩

/-- A wait ends where its condition was found to hold, or does not end. -/
lemma goes_await {p : Platform (Exchange τ)} {condition : Proc (Exchange τ) Bool}
    {P : Exchange τ → Prop}
    (h : ∀ s, Goes busy condition s fun r s' => r = true → P s') :
    Goes busy (p.await condition) s fun _ s' => P s' := by
  intro hb
  refine Proc.stops_await (I := Treated busy s) (fun s₁ h₁ => ?_) (treated_of_eq rfl rfl)
  refine (h s₁ (h₁.1.bounded hb)).mono (fun r s₂ h₂ => ?_) fun e s₂ h₂ => ⟨h₂.1, h₁.trans h₂.2⟩
  have hboth := h₁.trans h₂.1
  cases r with
  | true => exact ⟨hboth, h₂.2 rfl⟩
  | false => exact ⟨hboth, nofun, hboth⟩

/-- What spares one side more. -/
lemma Goes.spare {link : Link} {side : Side} {x : Proc (Exchange τ) α}
    (h : Goes ((link, side) :: busy) x s Q) :
    Goes busy x s fun _ s' => Queues.Spared side (s.board.queues link) (s'.board.queues link) := by
  have hweak : ∀ s', Treated ((link, side) :: busy) s s' → Treated busy s s' := fun s' hs =>
    ⟨hs.1.of_subset (List.subset_cons_self _ _), hs.2⟩
  intro hb
  refine (h hb).mono (fun _ s' hs => ⟨hweak s' hs.1, ?_⟩) fun _ s' hs => ⟨hs.1, hweak s' hs.2⟩
  exact hs.1.1.spared link side List.mem_cons_self

lemma Sparing.of_cons {link : Link} {side : Side} {x : Proc (Exchange τ) α}
    (h : Sparing ((link, side) :: busy) x) : Sparing busy x := fun s =>
  (h s).spare.imp fun _ _ _ _ => trivial

/-! ### Accesses -/

lemma toNat_ofNat_length {l : List Word} (h : l.length ≤ Queues.capacity) :
    (BitVec.ofNat 32 l.length).toNat = l.length := by
  simp only [Queues.capacity] at h
  rw [BitVec.toNat_ofNat]
  omega

lemma goes_loadOf {a : ℕ} {w : Width} {Q : Word → Exchange τ → Prop}
    (h : ∃ v b, s.board.load a w = .ok (v, b) ∧ s.board.Treated busy b ∧ Q v (s.saw b)) :
    Goes busy (load a w) s Q := by
  obtain ⟨v, b, hload, ht, hQ⟩ := h
  intro _
  unfold Proc.Stops load
  rw [hload]
  exact ⟨treated_saw ht, hQ⟩

lemma goes_storeOf {a : ℕ} {w : Width} {v : Word} {Q : Unit → Exchange τ → Prop}
    (ht : s.board.Treated busy (s.board.store a w v)) (hQ : Q () (s.saw (s.board.store a w v))) :
    Goes busy (store a w v) s Q := by
  intro _
  unfold Proc.Stops store
  exact ⟨treated_saw ht, hQ⟩

section

variable {link : Link} {side : Side} {meanwhile : Proc (Exchange τ) Unit}
  {log : Log.Record → Proc (Exchange τ) Unit} {patience : Exchange τ → ℕ}

/-- A register of the channel other than the receive data register. -/
lemma goes_register
    (hmeanwhile : Sparing ((link, side) :: busy) meanwhile) {o : ℕ}
    (ho : o < MemoryMap.blockSize) (hne : o ≠ link.layout.rx + QueueRegister.data)
    {f : Queues → Word} (hf : ∀ q : Queues, q.read? link.layout o = some (f q)) :
    Goes busy ((link.channel (platform meanwhile log patience)).regs.read o) s fun v s' =>
      Queues.Spared side (s.board.queues link) (s'.board.queues link) ∧
        v = f (s'.board.queues link) := by
  rw [Link.read_eq _ _ ho]
  refine Goes.bind (hmeanwhile s).spare fun _ s₁ hspared => ?_
  refine goes_loadOf ⟨_, _, Board.load_register _ _ _ ho hne, refl_of _ _, hspared, ?_⟩
  rw [hf]
  exact Width.cut_word _

/-! ### Transfers -/

section Transmit

variable (hfree : (link, .tx) ∉ busy) (hmeanwhile : Sparing ((link, .tx) :: busy) meanwhile)

include hmeanwhile

/-- The length that is read is that of the transmit queue. -/
lemma goes_txLength :
    Goes busy (link.channel (platform meanwhile log patience)).txLength s fun v s' =>
      v.toNat = (s'.board.queues link).tx.length := by
  refine (goes_register (o := link.layout.tx + QueueRegister.length)
    (f := fun q => BitVec.ofNat 32 q.tx.length) hmeanwhile (by cases link <;> decide)
    (by cases link <;> decide) (fun q => by cases link <;> rfl)).imp ?_
  rintro v s' hb ⟨-, rfl⟩
  exact toNat_ofNat_length (hb link).tx

/-- The capacity is the same at all times, and a queue that had room has room. -/
lemma goes_txCapacity :
    Goes busy (link.channel (platform meanwhile log patience)).txCapacity s fun v s' =>
      v.toNat = Queues.capacity ∧
        (s'.board.queues link).tx.length ≤ (s.board.queues link).tx.length := by
  refine (goes_register (o := link.layout.tx + QueueRegister.capacity)
    (f := fun _ => BitVec.ofNat 32 Queues.capacity) hmeanwhile (by cases link <;> decide)
    (by cases link <;> decide) (fun q => by cases link <;> rfl)).imp ?_
  rintro v s' - ⟨hspared, rfl⟩
  exact ⟨rfl, hspared⟩

include hfree

/-- A unit is written while there is room. -/
lemma goes_writeUnit (hroom : (s.board.queues link).tx.length < Queues.capacity) (w : Width)
    (unit : Word) :
    Goes busy ((link.channel (platform meanwhile log patience)).writeUnit w unit) s
      fun _ _ => True := by
  have hwrite : (link.channel (platform meanwhile log patience)).writeUnit w unit =
      (platform meanwhile log patience).store
        (link.base + (link.layout.tx + QueueRegister.data)) .word (w.cut unit) :=
    link.write_eq (o := link.layout.tx + QueueRegister.data) _ (by cases link <;> decide) _
  rw [hwrite]
  refine Goes.bind (hmeanwhile s).spare fun _ s₁ hspared => ?_
  exact goes_storeOf (Board.treated_transmit hfree (Nat.lt_of_le_of_lt hspared hroom) _) trivial

lemma goes_sendEach (w : Width) {capacity : Word} (hcap : capacity.toNat = Queues.capacity)
    (units : List Word) :
    Goes busy ((link.channel (platform meanwhile log patience)).sendEach w capacity units) s
      fun _ _ => True := by
  induction units generalizing s with
  | nil => exact goes_pure () trivial
  | cons unit rest ih =>
    -- a length other than the capacity is below it, since no queue is longer than that
    have hawait : ∀ s : Exchange τ, Goes busy
        (do return (← (link.channel (platform meanwhile log patience)).txLength) != capacity) s
        fun r s' => r = true → (s'.board.queues link).tx.length < Queues.capacity := by
      intro s
      refine Goes.bind ((goes_txLength hmeanwhile).imp fun v s' hb hv =>
        And.intro hv (hb link).tx) ?_
      rintro v s₁ ⟨hv, hle⟩
      refine goes_pure _ fun hne => ?_
      have hne : v ≠ capacity := by simpa using hne
      refine lt_of_le_of_ne hle fun heq => hne (BitVec.eq_of_toNat_eq ?_)
      rw [hv, heq, hcap]
    refine Goes.bind (goes_await hawait) fun _ s₁ hroom => ?_
    exact Goes.bind (goes_writeUnit hfree hmeanwhile hroom w unit) fun _ s₂ _ => ih

lemma goes_trySend (w : Width) (unit : Word) :
    Goes busy ((link.channel (platform meanwhile log patience)).trySend w unit) s
      fun _ _ => True := by
  refine Goes.bind (goes_txLength hmeanwhile) fun length s₁ hlength => ?_
  refine Goes.bind (goes_txCapacity hmeanwhile) fun capacity s₂ hcap => ?_
  split
  · next hlt =>
    -- what there was room for at the look there is room for now
    have hroom : (s₂.board.queues link).tx.length < Queues.capacity := by
      have := hcap.1
      have := hcap.2
      bv_omega
    exact Goes.bind (goes_writeUnit hfree hmeanwhile hroom w unit) fun _ _ _ => goes_pure _ trivial
  · exact goes_pure _ trivial

end Transmit

section Receive

variable (hfree : (link, .rx) ∉ busy) (hmeanwhile : Sparing ((link, .rx) :: busy) meanwhile)
  (hlog : ∀ r, Sparing ((link, .rx) :: busy) (log r))

include hmeanwhile

lemma goes_rxLength :
    Goes busy (link.channel (platform meanwhile log patience)).rxLength s fun v s' =>
      v.toNat = (s'.board.queues link).rx.length := by
  refine (goes_register (o := link.layout.rx + QueueRegister.length)
    (f := fun q => BitVec.ofNat 32 q.rx.length) hmeanwhile (by cases link <;> decide)
    (by cases link <;> decide) (fun q => by cases link <;> rfl)).imp ?_
  rintro v s' hb ⟨-, rfl⟩
  exact toNat_ofNat_length (hb link).rx

include hfree

/-- A unit is taken while there is one. -/
lemma goes_readUnit (hsome : 0 < (s.board.queues link).rx.length) (w : Width) :
    Goes busy ((link.channel (platform meanwhile log patience)).readUnit w) s fun _ s' =>
      (s.board.queues link).rx.length ≤ (s'.board.queues link).rx.length + 1 := by
  rw [Link.readUnit_eq]
  refine Goes.bind (Goes.bind (hmeanwhile s).spare fun _ s₁ hspared => ?_)
    fun _ s' h => goes_pure _ h
  have hle : (s.board.queues link).rx.length ≤ (s₁.board.queues link).rx.length := hspared
  obtain ⟨v, rest, hrx⟩ := List.exists_cons_of_length_pos (Nat.lt_of_lt_of_le hsome hle)
  have htake : (s₁.board.queues link).take? =
      some (v, { s₁.board.queues link with rx := rest }) := by
    unfold Queues.take?
    rw [hrx]
  have hload : s₁.board.load link.dataAddress .word =
      .ok (v, s₁.board.setQueues { s₁.board.queues link with rx := rest } link) := by
    rw [Board.load_data, htake]
    exact congrArg (fun u => Except.ok (u, _)) (Width.cut_word v)
  refine goes_loadOf ⟨_, _, hload, Board.treated_take hfree htake, ?_⟩
  show _ ≤ ((s₁.board.setQueues _ link).queues link).rx.length + 1
  rw [Board.queues_setQueues, ← List.length_cons (a := v), ← hrx]
  exact hle

lemma goes_recv (w : Width) (n : ℕ) :
    Goes busy ((link.channel (platform meanwhile log patience)).recv w n) s fun _ _ => True := by
  induction n generalizing s with
  | zero => exact goes_pure _ trivial
  | succ n ih =>
    have hawait : ∀ s : Exchange τ, Goes busy
        (do return (← (link.channel (platform meanwhile log patience)).rxLength) != 0#32) s
        fun r s' => r = true → 0 < (s'.board.queues link).rx.length := by
      intro s
      refine Goes.bind (goes_rxLength hmeanwhile) fun v s₁ hv => goes_pure _ fun hne => ?_
      have hne : v ≠ 0#32 := by simpa using hne
      rw [← hv]
      bv_omega
    refine Goes.bind (goes_await hawait) fun _ s₁ hsome => ?_
    refine Goes.bind (goes_readUnit hfree hmeanwhile hsome w) fun unit s₂ _ => ?_
    exact Goes.bind ih fun _ _ _ => goes_pure _ trivial

lemma goes_tryRecv (w : Width) :
    Goes busy ((link.channel (platform meanwhile log patience)).tryRecv w) s fun _ _ => True := by
  refine Goes.bind (goes_rxLength hmeanwhile) fun length s₁ hlength => ?_
  split
  · next hlt =>
    have hsome : 0 < (s₁.board.queues link).rx.length := by bv_omega
    exact Goes.bind (goes_readUnit hfree hmeanwhile hsome w) fun _ _ _ => goes_pure _ trivial
  · exact goes_pure _ trivial

/-- As many units as were counted are there to take. -/
lemma goes_fill (buffer : Cell τ ReceiveBuffer) (w : Width) (start : ℕ) {n : ℕ}
    (h : n ≤ (s.board.queues link).rx.length) :
    Goes busy (ReceiveBuffer.fill (within buffer)
      (fun _ => (link.channel (platform meanwhile log patience)).readUnit w) start n 0 0) s
      fun _ _ => True := by
  intro hb
  refine (ReceiveBuffer.stops_fill (M := fun i _ s' => Treated busy s s' ∧
    n ≤ i + (s'.board.queues link).rx.length) (fun i hi stored s₁ h₁ => ?_)
    ⟨treated_of_eq rfl rfl, by omega⟩).mono (fun _ _ h' => ⟨h'.1, trivial⟩) fun _ _ he => he
  obtain ⟨htreated₁, hleft₁⟩ := h₁
  refine (goes_readUnit hfree hmeanwhile (by omega) w (htreated₁.1.bounded hb)).mono ?_
    fun e s₂ h₂ => ⟨h₂.1, htreated₁.trans h₂.2⟩
  rintro unit s₂ ⟨htreated₂, hleft₂⟩
  have htreated := htreated₁.trans htreated₂
  have hleft : n ≤ i + 1 + (s₂.board.queues link).rx.length := by omega
  exact ⟨fun _ => ⟨htreated.trans (treated_of_eq rfl rfl), hleft⟩, fun _ => ⟨htreated, hleft⟩⟩

include hlog

lemma goes_append (buffer : Cell τ ReceiveBuffer) (w : Width) {n : ℕ}
    (h : n ≤ (s.board.queues link).rx.length) :
    Goes busy (ReceiveBuffer.append (platform meanwhile log patience) (within buffer) n
      fun _ => (link.channel (platform meanwhile log patience)).readUnit w) s fun _ _ => True := by
  refine Goes.bind (goes_readRest buffer) fun b s₁ h₁ => ?_
  have hn : n ≤ (s₁.board.queues link).rx.length := by rw [h₁]; exact h
  refine Goes.bind (goes_fill hfree hmeanwhile buffer w _ hn) fun stored s₂ _ => ?_
  have hpublish : ∀ s, Goes busy (do
      (within buffer).update fun b' => { b' with count := b.count + stored }
      return stored) s fun _ _ => True := fun s =>
    Goes.bind (goes_updateRest buffer _) fun _ _ _ => goes_pure _ trivial
  split
  · refine Goes.bind (goes_updateRest buffer _) fun _ s₃ _ => ?_
    exact Goes.bind ((hlog _).of_cons s₃) fun _ s₄ _ => hpublish s₄
  · exact hpublish s₂

lemma goes_handle (buffer : Cell τ ReceiveBuffer) (completions : Cell τ ℕ) (id : Word) :
    Goes busy (Reception.handle ⟨link.channel (platform meanwhile log patience), within buffer,
      within completions⟩ id) s fun _ _ => True := by
  refine Goes.bind (goes_register (o := link.layout.pending) (f := Queues.pending) hmeanwhile
    (by cases link <;> decide) (by cases link <;> decide) (fun q => by cases link <;> rfl))
    fun flags s₁ _ => ?_
  split
  · -- at least as many units wait as were seen
    refine Goes.bind (goes_rxLength hmeanwhile) fun waiting s₂ hwaiting => ?_
    refine Goes.bind (goes_readRest buffer) fun b s₃ h₃ => ?_
    have hn : waiting.toNat ≤ (s₃.board.queues link).rx.length := by rw [h₃, hwaiting]
    refine Goes.bind (goes_append hfree hmeanwhile hlog buffer b.width hn) fun stored s₄ _ => ?_
    refine Goes.bind (goes_updateRest completions _) fun _ s₅ _ => ?_
    refine Goes.bind (goes_readRest completions) fun n s₆ _ => ?_
    exact Goes.bind (goes_readRest buffer) fun b s₇ _ => (hlog _).of_cons s₇
  · exact (hlog _).of_cons s₁

end Receive

lemma goes_perform (t : Transfer τ α) (hfree : (link, t.side) ∉ busy)
    (hmeanwhile : Sparing ((link, t.side) :: busy) meanwhile)
    (hlog : ∀ r, Sparing ((link, t.side) :: busy) (log r)) :
    Goes busy (t.perform (platform meanwhile log patience) link) s fun _ _ => True := by
  cases t with
  | send w units =>
    exact Goes.bind (goes_txCapacity hmeanwhile) fun capacity s₁ hcap =>
      goes_sendEach hfree hmeanwhile w hcap.1 units
  | recv w n => exact goes_recv hfree hmeanwhile w n
  | trySend w unit => exact goes_trySend hfree hmeanwhile w unit
  | tryRecv w => exact goes_tryRecv hfree hmeanwhile w
  | handle buffer completions id => exact goes_handle hfree hmeanwhile hlog buffer completions id

end

lemma Activity.sparing {x : Proc (Exchange τ) α} (h : Activity busy x) : Sparing busy x := by
  intro s
  induction h generalizing s with
  | pure a => exact goes_pure a trivial
  | bind _ _ ihx ihf => exact Goes.bind (ihx s) fun a s₁ _ => ihf a s₁
  | get => exact fun _ => Proc.stops_get.2 ⟨treated_of_eq rfl rfl, trivial⟩
  | elsewhere f => exact goes_modify (treated_of_eq rfl rfl) trivial
  | halt e he => exact fun _ => (Proc.stops_throw e).2 ⟨he, treated_of_eq rfl rfl⟩
  | outside o => exact goes_modify (treated_saw (Board.treated_act _ o)) trivial
  | load address w hdata =>
    cases hload : s.board.load address w with
    | ok r => exact goes_loadOf ⟨r.1, r.2, hload, Board.treated_load hdata hload, trivial⟩
    | error f =>
      -- only a data register faults
      obtain ⟨link, ha, -⟩ := Board.load_error hload
      exact absurd ha (hdata link)
  | store address w v hdata hclear =>
    exact goes_storeOf (Board.treated_store hdata hclear w v) trivial
  | transfer patience hfree _ _ ihm ihlog => exact goes_perform _ hfree ihm ihlog

/-- No queue of the board is too long, and no unit was written to a full queue since `first`. -/
def Unspoilt (first b : Board) : Prop :=
  ∀ link, (b.queues link).tx.length ≤ Queues.capacity ∧
    (b.queues link).rx.length ≤ Queues.capacity ∧
    (b.queues link).droppedTx = (first.queues link).droppedTx

/-- Whatever transfers run on a board out of reset, and whatever the world outside does between any
two accesses, no receive queue is read while it is empty, no transmit queue is written while it is
full, and no queue is ever too long. This is so also where a transfer waits for ever. -/
theorem transfers_respect_queues {x : Proc (Exchange τ) α} (hx : Activity [] x) (s : Exchange τ)
    (hreach : s.board.Reachable) :
    x.Stops s
      (fun _ s' => ∃ t, s'.seen = s.seen ++ t ∧ ∀ b ∈ s'.board :: t, Unspoilt s.board b)
      fun e s' => (∀ address, e ≠ .fault (.emptyQueueRead address)) ∧
        ∃ t, s'.seen = s.seen ++ t ∧ ∀ b ∈ s'.board :: t, Unspoilt s.board b := by
  have hb := hreach.bounded
  have hunspoilt : ∀ {b : Board}, s.board.Treated [] b → Unspoilt s.board b := fun h link =>
    ⟨(h.bounded hb link).tx, (h.bounded hb link).rx, h.dropped link⟩
  have hend : ∀ {s' : Exchange τ}, Treated [] s s' →
      ∃ t, s'.seen = s.seen ++ t ∧ ∀ b ∈ s'.board :: t, Unspoilt s.board b := by
    rintro s' ⟨hboard, t, ht, hseen⟩
    refine ⟨t, ht, fun b hmem => ?_⟩
    rcases List.mem_cons.1 hmem with rfl | hmem
    · exact hunspoilt hboard
    · exact hunspoilt (hseen b hmem)
  exact (hx.sparing s hb).mono (fun _ _ h => hend h.1) fun _ _ h => ⟨h.1, hend h.2⟩

/-- Between the accesses of the uart the peers act, and an interrupt drains a spi into a buffer. -/
def drainSpi : Proc (Exchange (ReceiveBuffer × ℕ)) Unit := do
  modify (act · (.take .uart 1))
  modify (act · (.send .spi0 5#32))
  (Transfer.handle ⟨Prod.fst, fun b r => (b, r.2)⟩ ⟨Prod.snd, fun n r => (r.1, n)⟩ 2#32).perform
    (platform (modify (act · (.send .spi0 6#32))) (fun _ => pure ()) fun _ => 2) .spi0

/-- The uart sends more than its queue holds, and looks for an answer. -/
def sendMany : Proc (Exchange (ReceiveBuffer × ℕ)) (Option Word) := do
  (Transfer.send .byte (List.replicate 12 0x41#32)).perform
    (platform drainSpi (fun _ => pure ()) fun _ => 2) .uart
  (Transfer.tryRecv .byte).perform (platform drainSpi (fun _ => pure ()) fun _ => 2) .uart

/-- The spi interrupts at one unit, and the transmit queue of the uart is full. -/
def filling : List Operation :=
  .store (Link.spi0.base + Layout.spi.enable) .word 2#32 ::
    .store (Link.spi0.base + Layout.spi.rxThreshold) .word 1#32 ::
      List.replicate 8 (.store (Link.uart.base + (Layout.uart.tx + QueueRegister.data)) .word 1#32)

theorem transfers_respect_queues_sendMany : ∃ b, Board.new.run filling = .ok b ∧
    (b.queues .uart).tx.length = Queues.capacity ∧
      sendMany.Stops ⟨b, [], .new .byte 4, 0⟩
        (fun _ s' => ∀ b' ∈ s'.board :: s'.seen, Unspoilt b b')
        fun e s' => (∀ address, e ≠ .fault (.emptyQueueRead address)) ∧
          ∀ b' ∈ s'.board :: s'.seen, Unspoilt b b' := by
  have hsend : ∀ {busy : List (Link × Side)} (o : Outside),
      Activity busy (modify (act · o) : Proc (Exchange (ReceiveBuffer × ℕ)) Unit) := .outside
  have hspi : ∀ side, Activity [(.uart, side)] drainSpi := fun side =>
    .bind (hsend _) fun _ => .bind (hsend _) fun _ =>
      .transfer (fun _ => 2) (by cases side <;> decide) (hsend _) fun _ => .pure ()
  have hactive : Activity [] sendMany :=
    .bind (.transfer (fun _ => 2) (by decide) (hspi .tx) fun _ => .pure ()) fun _ =>
      .transfer (fun _ => 2) (by decide) (hspi .rx) fun _ => .pure ()
  have hfull : (Board.new.run filling).toOption.map (fun b => (b.queues .uart).tx.length) =
      some Queues.capacity := by decide +kernel
  cases hrun : Board.new.run filling with
  | error f =>
    rw [hrun] at hfull
    cases hfull
  | ok b =>
    rw [hrun] at hfull
    refine ⟨b, rfl, Option.some.inj hfull, ?_⟩
    refine (transfers_respect_queues hactive ⟨b, [], .new .byte 4, 0⟩ ⟨filling, hrun⟩).mono ?_ ?_
    · rintro _ s' ⟨t, ht, h⟩
      rw [ht]
      exact h
    · rintro e s' ⟨he, t, ht, h⟩
      rw [ht]
      exact ⟨he, h⟩

end Exchange

end BoardSupport
