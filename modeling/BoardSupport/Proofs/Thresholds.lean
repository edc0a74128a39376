import BoardSupport.Proofs.Batching
import BoardSupport.Proofs.BlockingSend
import BoardSupport.Proofs.Fields

/-!
When a channel asks for service.

Each queue of a channel has an interrupt with a threshold and an enable. The driver brings a
threshold that is asked for into the range in which the condition can both arise and go away, and
writes it before the enable. Calls and peers that have to do with the queues alone leave the
registers of the interrupts as they are, so the condition follows the length of the queue from then
on. An interrupt that was switched off stays off until it is switched on again.
-/

namespace BoardSupport

/-! ### Calls and thresholds -/

/-- The bit of a queue's interrupt, among the enables and among the conditions. -/
def Side.irq : Side → Field
  | .tx => Irq.transmit
  | .rx => Irq.receive

/-- The receive threshold in effect when this one is asked for. -/
def effectiveRx (t : Word) : ℕ :=
  if 1 ≤ t.toNat ∧ t.toNat ≤ Queues.capacity then t.toNat else Queues.capacity

/-- The transmit threshold in effect when this one is asked for. -/
def effectiveTx (t : Word) : ℕ := if t.toNat < Queues.capacity then t.toNat else 0

namespace Link.Call

/-- The call that switches the interrupt of a queue on or off. -/
def setIrq : Side → Bool → Word → Call Unit
  | .tx => setTxIrq
  | .rx => setRxIrq

/-- The interrupt that the call switches and whether it switches it on, if it switches one. -/
def switch? : {α : Type} → Call α → Option (Side × Bool)
  | _, .setTxIrq on _ => some (.tx, on)
  | _, .setRxIrq on _ => some (.rx, on)
  | _, _ => none

end Link.Call

/-- Something done on a board: a single access, an act of the world outside, or a call on a channel,
which waits for as long as its patience lasts. -/
inductive Deed : Type 1 where
  | operation (op : Operation)
  | call (patience : ℕ) (link : Link) {α : Type} (f : Link.Call α)

namespace Deed

/-- The deed comes to an end and leads from the one board to the other. -/
def Leads (b b' : Board) : Deed → Prop
  | .operation op => b.apply op = .ok b'
  | .call patience link f => ∃ a, f.perform patience link b = .ok a b'

/-- Deeds one after the other. -/
def AllLead : List Deed → Board → Board → Prop
  | [], b, b' => b' = b
  | d :: rest, b, b' => ∃ b₁, d.Leads b b₁ ∧ AllLead rest b₁ b'

lemma AllLead.invariant {P : Board → Prop} {deeds : List Deed} {b b' : Board}
    (hstep : ∀ d ∈ deeds, ∀ b b', P b → d.Leads b b' → P b') (hb : P b)
    (hlead : AllLead deeds b b') : P b' := by
  induction deeds generalizing b with
  | nil =>
    obtain rfl : b' = b := hlead
    exact hb
  | cons d rest ih =>
    obtain ⟨b₁, hd, hrest⟩ := hlead
    have hb₁ := hstep d List.mem_cons_self b b₁ hb hd
    exact ih (fun d' hd' => hstep d' (List.mem_cons_of_mem d hd')) hb₁ hrest

/-- The deed has to do with the interrupts of the channel: it writes one of their registers, or
switches one of them by a call. -/
def Concerns (link : Link) : Deed → Prop
  | .operation (.store a _ _) =>
    ∃ o ∈ [link.layout.enable, link.layout.txThreshold, link.layout.rxThreshold], a = link.base + o
  | .operation _ => False
  | .call _ l f => l = link ∧ f.switch?.isSome

/-- The deed switches the interrupt on. -/
def Enables (link : Link) (side : Side) : Deed → Prop
  | .operation (.store a w v) =>
    a = link.base + link.layout.enable ∧ side.irq.isSet (w.cut v) = true
  | .operation _ => False
  | .call _ l f => l = link ∧ f.switch? = some (side, true)

end Deed

/-! ### What deeds do to the registers of the interrupts -/

namespace Queues

variable {q q' : Queues}

/-- The registers of the interrupts: the enables and the two thresholds. -/
def irqs (q : Queues) : Word × Word × Word := (q.enable, q.txThreshold, q.rxThreshold)

lemma irqs_arrive (q : Queues) (unit : Word) : (q.arrive unit).irqs = q.irqs := by
  unfold arrive
  split <;> rfl

lemma irqs_transmit (q : Queues) (unit : Word) : (q.transmit unit).irqs = q.irqs := by
  unfold transmit
  split
  · rfl
  · split
    · rfl
    · rfl
    · exact irqs_arrive { q with transmitted := q.transmitted ++ [unit] } unit

lemma irqs_take {unit : Word} (h : q.take? = some (unit, q')) : q'.irqs = q.irqs := by
  unfold take? at h
  split at h <;> cases h
  rfl

/-- All that a write does to the registers of the interrupts. -/
lemma irqs_write {l : Layout} {o : ℕ} {v : Word} (h : q.write? l o v = some q') :
    q'.irqs = q.irqs ∨ (o = l.enable ∧ q'.irqs = (v, q.txThreshold, q.rxThreshold)) ∨
      (o = l.txThreshold ∧ q'.irqs = (q.enable, v, q.rxThreshold)) ∨
      (o = l.rxThreshold ∧ q'.irqs = (q.enable, q.txThreshold, v)) := by
  unfold write? at h
  split_ifs at h with hclearTx hdata hclearRx henable htx hrx <;> cases h
  · exact .inl rfl
  · exact .inl (irqs_transmit q v)
  · exact .inl rfl
  · exact .inr (.inl ⟨henable, rfl⟩)
  · exact .inr (.inr (.inl ⟨htx, rfl⟩))
  · exact .inr (.inr (.inr ⟨hrx, rfl⟩))

/-- The queues with an interrupt switched on or off. -/
def setIrq (q : Queues) : Side → Bool → Word → Queues
  | .tx, on, t =>
    { q with
      enable := Irq.transmit.putBool on q.enable
      txThreshold := if on then clampTx t (BitVec.ofNat 32 capacity) else q.txThreshold }
  | .rx, on, t =>
    { q with
      enable := Irq.receive.putBool on q.enable
      rxThreshold := if on then clampRx t (BitVec.ofNat 32 capacity) else q.rxThreshold }

end Queues

namespace Board

variable {b b' : Board} {link : Link} {patience : ℕ}

/-- The registers of the channel's interrupts are as they were. -/
def SameIrqs (link : Link) (b b' : Board) : Prop := (b'.queues link).irqs = (b.queues link).irqs

instance : IsPreorder Board (SameIrqs link) where
  refl _ := rfl
  trans _ _ _ h h' := h'.trans h

lemma sameIrqs_of_queues (h : b'.queues link = b.queues link) : SameIrqs link b b' :=
  congrArg Queues.irqs h

lemma sameIrqs_setQueues {l : Link} {q : Queues} (h : q.irqs = (b.queues l).irqs) :
    SameIrqs link b (b.setQueues q l) := by
  by_cases hl : link = l
  · subst hl
    rw [SameIrqs, queues_setQueues, h]
  · exact sameIrqs_of_queues (queues_setQueues_of_ne b q hl)

lemma sameIrqs_load {a : ℕ} {w : Width} {v : Word} (h : b.load a w = .ok (v, b')) :
    SameIrqs link b b' := by
  rcases load_cases h with ⟨-, -, rfl⟩ | ⟨-, -, rfl⟩ | ⟨l, unit, q, -, hq, -, rfl⟩
  · exact refl_of _ _
  · exact sameIrqs_of_queues (queues_arbiter b _ link)
  · exact sameIrqs_setQueues (Queues.irqs_take hq)

lemma sameIrqs_act (b : Board) (o : Outside) : SameIrqs link b (b.act o) := by
  cases o with
  | send l unit => exact sameIrqs_setQueues (Queues.irqs_arrive _ unit)
  | take l n => exact sameIrqs_setQueues rfl
  | rewire l wire => exact sameIrqs_setQueues rfl
  | request id =>
    rw [act_request]
    exact sameIrqs_of_queues (queues_arbiter b _ link)

/-- All that a store does to the registers of the channel's interrupts. -/
lemma irqs_store (link : Link) (b : Board) (a : ℕ) (w : Width) (v : Word) :
    SameIrqs link b (b.store a w v) ∨
    (a = link.base + link.layout.enable ∧ ((b.store a w v).queues link).irqs =
      (w.cut v, (b.queues link).txThreshold, (b.queues link).rxThreshold)) ∨
    (a = link.base + link.layout.txThreshold ∧ ((b.store a w v).queues link).irqs =
      ((b.queues link).enable, w.cut v, (b.queues link).rxThreshold)) ∨
    (a = link.base + link.layout.rxThreshold ∧ ((b.store a w v).queues link).irqs =
      ((b.queues link).enable, (b.queues link).txThreshold, w.cut v)) := by
  rcases store_cases b a w v with ⟨o, arbiter, -, -, hs⟩ | ⟨l, o, q, hplace, hq, hs⟩ | ⟨-, hs⟩
  · rw [hs]
    exact .inl (sameIrqs_of_queues (queues_arbiter b arbiter link))
  · rw [hs]
    by_cases hl : link = l
    · subst hl
      have ha := eq_of_place_channel hplace
      rw [SameIrqs, queues_setQueues, ha]
      simp only [Nat.add_left_cancel_iff]
      exact Queues.irqs_write hq
    · exact .inl (sameIrqs_of_queues (queues_setQueues_of_ne b q hl))
  · exact .inl (sameIrqs_of_queues (hs link))

/-! ### Calls -/

lemma enabledIrqs_board : (link.channel (platform patience)).enabledIrqs b =
    .ok (b.queues link).enable b :=
  readRegister_board (o := link.layout.enable) (by cases link <;> decide)
    (by cases link <;> decide) (by cases link <;> rfl)

lemma rxCapacity_board : (link.channel (platform patience)).rxCapacity b =
    .ok (BitVec.ofNat 32 Queues.capacity) b :=
  readRegister_board (o := link.layout.rx + QueueRegister.capacity) (by cases link <;> decide)
    (by cases link <;> decide) (by cases link <;> rfl)

lemma pendingIrqs_board : (link.channel (platform patience)).pendingIrqs b =
    .ok (b.queues link).pending b :=
  readRegister_board (o := link.layout.pending) (by cases link <;> decide)
    (by cases link <;> decide) (by cases link <;> rfl)

lemma writeRegister_board {o : ℕ} {v : Word} {q : Queues} (ho : o < MemoryMap.blockSize)
    (hq : (b.queues link).write? link.layout o v = some q) :
    (link.channel (platform patience)).regs.write o v b = .ok () (b.setQueues q link) := by
  rw [Link.write_eq _ _ ho]
  exact congrArg (EStateM.Result.ok ()) (store_channel ho hq)

lemma setEnable_board (f : Field) (on : Bool) :
    (link.channel (platform patience)).setEnable f on b =
      .ok () (b.setQueues
        { b.queues link with enable := f.putBool on (b.queues link).enable } link) := by
  refine (Proc.bind_of_ok enabledIrqs_board).trans ?_
  refine (Proc.bind_of_ok rfl).trans ?_
  exact writeRegister_board (o := link.layout.enable) (by cases link <;> decide)
    (by cases link <;> rfl)

/-- A threshold is written, and then the enable. -/
lemma writeThenEnable_board {o : ℕ} {v : Word} {q : Queues} (ho : o < MemoryMap.blockSize)
    (hq : (b.queues link).write? link.layout o v = some q) (f : Field) (on : Bool) :
    (do
      (link.channel (platform patience)).regs.write o v
      (link.channel (platform patience)).setEnable f on : Proc Board Unit) b =
      .ok () (b.setQueues { q with enable := f.putBool on q.enable } link) := by
  refine (Proc.bind_of_ok (writeRegister_board ho hq)).trans ((setEnable_board f on).trans ?_)
  rw [queues_setQueues, setQueues_setQueues]

lemma setIrq_board (side : Side) (on : Bool) (t : Word) :
    (Link.Call.setIrq side on t).perform patience link b =
      .ok () (b.setQueues ((b.queues link).setIrq side on t) link) := by
  have htx : ∀ v, (b.queues link).write? link.layout link.layout.txThreshold v =
      some { b.queues link with txThreshold := v } := fun v => by cases link <;> rfl
  have hrx : ∀ v, (b.queues link).write? link.layout link.layout.rxThreshold v =
      some { b.queues link with rxThreshold := v } := fun v => by cases link <;> rfl
  cases side with
  | tx =>
    cases on with
    | false => exact setEnable_board Irq.transmit false
    | true =>
      refine (Proc.bind_of_ok txCapacity_board).trans ((Proc.bind_of_ok rfl).trans ?_)
      exact writeThenEnable_board (by cases link <;> decide) (htx _) Irq.transmit true
  | rx =>
    cases on with
    | false => exact setEnable_board Irq.receive false
    | true =>
      refine (Proc.bind_of_ok rxCapacity_board).trans ((Proc.bind_of_ok rfl).trans ?_)
      exact writeThenEnable_board (by cases link <;> decide) (hrx _) Irq.receive true

/-! Calls that have to do with the queues alone. -/

lemma keeps_load (a : ℕ) (w : Width) :
    Proc.Keeps (SameIrqs link) (fun _ => True) ((platform patience).load a w) := by
  rw [Proc.keeps_iff]
  intro b v b' h
  cases hload : b.load a w with
  | ok r =>
    rw [platform_load_of_ok hload] at h
    cases h
    exact sameIrqs_load hload
  | error f =>
    rw [platform_load_of_error hload] at h
    cases h

lemma keeps_readRegister {o : ℕ} (ho : o < MemoryMap.blockSize) :
    Proc.Keeps (SameIrqs link) (fun _ => True)
      ((link.channel (platform patience)).regs.read o) := by
  rw [Link.read_eq _ _ ho]
  exact keeps_load _ _

lemma keeps_writeRegister {o : ℕ} (ho : o < MemoryMap.blockSize)
    (hne : o ∉ [link.layout.enable, link.layout.txThreshold, link.layout.rxThreshold]) (v : Word) :
    Proc.Keeps (SameIrqs link) (fun _ => True)
      ((link.channel (platform patience)).regs.write o v) := by
  simp only [List.mem_cons, List.not_mem_nil, or_false, not_or] at hne
  rw [Link.write_eq _ _ ho, Proc.keeps_iff]
  intro b _ b' h
  cases h
  have hstore := irqs_store link b (link.base + o) .word v
  simp only [Nat.add_left_cancel_iff, hne.1, hne.2.1, hne.2.2, false_and, or_false] at hstore
  exact hstore

lemma keeps_txLength :
    Proc.Keeps (SameIrqs link) (fun _ => True) (link.channel (platform patience)).txLength :=
  keeps_readRegister (o := link.layout.tx + QueueRegister.length) (by cases link <;> decide)

lemma keeps_rxLength :
    Proc.Keeps (SameIrqs link) (fun _ => True) (link.channel (platform patience)).rxLength :=
  keeps_readRegister (o := link.layout.rx + QueueRegister.length) (by cases link <;> decide)

lemma keeps_txCapacity :
    Proc.Keeps (SameIrqs link) (fun _ => True) (link.channel (platform patience)).txCapacity :=
  keeps_readRegister (o := link.layout.tx + QueueRegister.capacity) (by cases link <;> decide)

lemma keeps_readUnit (w : Width) :
    Proc.Keeps (SameIrqs link) (fun _ => True)
      ((link.channel (platform patience)).readUnit w) :=
  (keeps_readRegister link.data_lt).bind fun _ => Proc.keeps_pure _

lemma keeps_writeUnit (w : Width) (unit : Word) :
    Proc.Keeps (SameIrqs link) (fun _ => True)
      ((link.channel (platform patience)).writeUnit w unit) :=
  keeps_writeRegister (o := link.layout.tx + QueueRegister.data) (by cases link <;> decide)
    (by cases link <;> decide) _

lemma keeps_await {condition : Proc Board Bool}
    (h : Proc.Keeps (SameIrqs link) (fun _ => True) condition) :
    Proc.Keeps (SameIrqs link) (fun _ => True) ((platform patience).await condition) :=
  Proc.keeps_iterate trivial (fun _ => h.bind fun _ => Proc.keeps_pure _) ()

lemma keeps_sendEach (w : Width) (capacity : Word) (units : List Word) :
    Proc.Keeps (SameIrqs link) (fun _ => True)
      ((link.channel (platform patience)).sendEach w capacity units) := by
  induction units with
  | nil => exact Proc.keeps_pure ()
  | cons unit rest ih =>
    refine (keeps_await ?_).bind fun _ => (keeps_writeUnit w unit).bind fun _ => ih
    exact keeps_txLength.bind fun _ => Proc.keeps_pure _

lemma keeps_recv (w : Width) (n : ℕ) :
    Proc.Keeps (SameIrqs link) (fun _ => True)
      ((link.channel (platform patience)).recv w n) := by
  induction n with
  | zero => exact Proc.keeps_pure []
  | succ n ih =>
    refine (keeps_await ?_).bind fun _ => (keeps_readUnit w).bind fun unit => ?_
    · exact keeps_rxLength.bind fun _ => Proc.keeps_pure _
    · exact ih.bind fun rest => Proc.keeps_pure _

lemma keeps_perform {α : Type} (f : Link.Call α) (hf : f.switch? = none) :
    Proc.Keeps (SameIrqs link) (fun _ => True) (f.perform patience link) := by
  cases f with
  | send w units => exact keeps_txCapacity.bind fun capacity => keeps_sendEach w capacity units
  | recv w n => exact keeps_recv w n
  | trySend w unit =>
    refine keeps_txLength.bind fun length => keeps_txCapacity.bind fun capacity => ?_
    split
    · exact (keeps_writeUnit w unit).bind fun _ => Proc.keeps_pure _
    · exact Proc.keeps_pure _
  | tryRecv w =>
    refine keeps_rxLength.bind fun length => ?_
    split
    · exact (keeps_readUnit w).bind fun _ => Proc.keeps_pure _
    · exact Proc.keeps_pure _
  | clearTx =>
    exact keeps_writeRegister (o := link.layout.tx + QueueRegister.clear)
      (by cases link <;> decide) (by cases link <;> decide) _
  | clearRx =>
    exact keeps_writeRegister (o := link.layout.rx + QueueRegister.clear)
      (by cases link <;> decide) (by cases link <;> decide) _
  | setTxIrq on t => cases hf
  | setRxIrq on t => cases hf
  | txLength => exact keeps_txLength
  | rxLength => exact keeps_rxLength
  | txCapacity => exact keeps_txCapacity
  | rxCapacity =>
    exact keeps_readRegister (o := link.layout.rx + QueueRegister.capacity)
      (by cases link <;> decide)
  | enabledIrqs => exact keeps_readRegister (o := link.layout.enable) (by cases link <;> decide)
  | pendingIrqs => exact keeps_readRegister (o := link.layout.pending) (by cases link <;> decide)
  | peerSend unit =>
    refine Proc.keeps_iff.2 fun b accepted b' h => ?_
    cases h
    exact sameIrqs_act b (.send link unit)
  | peerDrain n =>
    refine Proc.keeps_iff.2 fun b taken b' h => ?_
    cases h
    exact sameIrqs_act b (.take link n)
  | setWire wire =>
    refine Proc.keeps_iff.2 fun b _ b' h => ?_
    cases h
    exact sameIrqs_act b (.rewire link wire)

end Board

namespace Link.Call

variable {α : Type} {link : Link} {b b' : Board} {patience : ℕ}

/-- A call switches one interrupt of its channel, or leaves them all alone. -/
lemma perform_cases {f : Call α} {a : α} (h : f.perform patience link b = .ok a b') :
    (f.switch? = none ∧ Board.SameIrqs link b b') ∨
      ∃ side on t, f.switch? = some (side, on) ∧
        b' = b.setQueues ((b.queues link).setIrq side on t) link := by
  cases hf : f.switch? with
  | none => exact .inl ⟨rfl, Proc.keeps_iff.1 (Board.keeps_perform f hf) b a b' h⟩
  | some switch =>
    refine .inr ?_
    cases f <;> cases hf
    · next on t =>
      cases (Board.setIrq_board .tx on t).symm.trans h
      exact ⟨.tx, on, t, rfl, rfl⟩
    · next on t =>
      cases (Board.setIrq_board .rx on t).symm.trans h
      exact ⟨.rx, on, t, rfl, rfl⟩

end Link.Call

namespace Deed

variable {link : Link} {b b' : Board} {d : Deed}

/-- All that a deed does to the registers of the channel's interrupts. -/
lemma Leads.cases (h : d.Leads b b') (link : Link) :
    Board.SameIrqs link b b' ∨
    (∃ a w v, d = .operation (.store a w v) ∧ b' = b.store a w v) ∨
    ∃ patience α, ∃ (f : Link.Call α) (side : Side) (on : Bool) (t : Word),
      d = .call patience link f ∧ f.switch? = some (side, on) ∧
        b'.queues link = (b.queues link).setIrq side on t := by
  rcases d with op | ⟨patience, l, f⟩
  · cases op with
    | load a w =>
      obtain ⟨v, hload⟩ := Board.load_of_apply h
      exact .inl (Board.sameIrqs_load hload)
    | store a w v =>
      cases h
      exact .inr (.inl ⟨a, w, v, rfl, rfl⟩)
    | outside o =>
      cases h
      exact .inl (Board.sameIrqs_act b o)
  · obtain ⟨a, ha⟩ := h
    by_cases hl : link = l
    · subst hl
      rcases Link.Call.perform_cases ha with ⟨-, hsame⟩ | ⟨side, on, t, hf, rfl⟩
      · exact .inl hsame
      · exact .inr (.inr ⟨patience, _, f, side, on, t, rfl, hf, Board.queues_setQueues ..⟩)
    · -- a call on another channel is confined to the queues there
      obtain ⟨y, hy⟩ : (Board.queuesCell l).Confines (f.perform patience l) :=
        Board.confines_perform f
      rw [hy] at ha
      obtain ⟨q, -, rfl⟩ := Cell.run_eq_ok_iff.1 ha
      exact .inl (Board.sameIrqs_of_queues (Board.queues_setQueues_of_ne b q hl))

lemma Leads.sameIrqs (h : d.Leads b b') (hd : ¬ d.Concerns link) : Board.SameIrqs link b b' := by
  rcases h.cases link with hsame | ⟨a, w, v, rfl, rfl⟩ | ⟨patience, α, f, side, on, t, rfl, hf, -⟩
  · exact hsame
  · have hne : ∀ o ∈ [link.layout.enable, link.layout.txThreshold, link.layout.rxThreshold],
        a ≠ link.base + o := fun o ho ha => hd ⟨o, ho, ha⟩
    rcases Board.irqs_store link b a w v with hsame | ⟨ha, -⟩ | ⟨ha, -⟩ | ⟨ha, -⟩
    · exact hsame
    · exact absurd ha (hne _ (by simp))
    · exact absurd ha (hne _ (by simp))
    · exact absurd ha (hne _ (by simp))
  · exact absurd ⟨rfl, by rw [hf]; rfl⟩ hd

end Deed

/-! ### Conditions -/

namespace Queues

variable {q : Queues} {side : Side}

lemma isSet_setIrq (q : Queues) (side s : Side) (on : Bool) (t : Word) :
    side.irq.isSet (q.setIrq s on t).enable =
      if side = s then on else side.irq.isSet q.enable := by
  cases side <;> cases s
  · exact Field.isSet_putBool (by decide) rfl on q.enable
  · exact Field.isSet_putBool_of_disjoint (by decide) on q.enable
  · exact Field.isSet_putBool_of_disjoint (by decide) on q.enable
  · exact Field.isSet_putBool (by decide) rfl on q.enable

lemma isSet_transmit_pending : Irq.transmit.isSet q.pending = q.transmitPending := by
  unfold pending
  cases q.receivePending <;> cases q.transmitPending <;> decide

/-- An interrupt that is switched off has no condition. -/
lemma isSet_pending_of_disabled (h : side.irq.isSet q.enable = false) :
    side.irq.isSet q.pending = false := by
  cases side with
  | tx =>
    refine isSet_transmit_pending.trans ?_
    rw [transmitPending, show Irq.transmit.isSet q.enable = false from h, Bool.false_and]
  | rx =>
    refine isSet_pending.trans ?_
    rw [receivePending, show Irq.receive.isSet q.enable = false from h, Bool.false_and,
      Bool.false_and]

end Queues

lemma toNat_clampTx (t : Word) :
    (clampTx t (BitVec.ofNat 32 Queues.capacity)).toNat = effectiveTx t := by
  rw [clampTx, apply_ite BitVec.toNat]
  rfl

lemma toNat_clampRx (t : Word) :
    (clampRx t (BitVec.ofNat 32 Queues.capacity)).toNat = effectiveRx t := by
  rw [clampRx, apply_ite BitVec.toNat]
  rfl

lemma effectiveTx_lt (t : Word) : effectiveTx t < Queues.capacity := by
  unfold effectiveTx
  split
  · assumption
  · decide

lemma effectiveRx_pos (t : Word) : 1 ≤ effectiveRx t := by
  unfold effectiveRx
  split
  · next h => exact h.1
  · decide

lemma effectiveRx_le (t : Word) : effectiveRx t ≤ Queues.capacity := by
  unfold effectiveRx
  split
  · next h => exact h.2
  · exact le_rfl

namespace Queues

variable {q : Queues}

/-- The conditions of the channel follow these two thresholds. -/
structure Follows (q : Queues) (rx tx : ℕ) (pending : Word) : Prop where
  receive : Irq.receive.isSet pending = true ↔ rx ≤ q.rx.length
  transmit : Irq.transmit.isSet pending = true ↔ q.tx.length ≤ tx
  receive_empty : q.rx = [] → Irq.receive.isSet pending = false
  receive_full : q.rx.length = capacity → Irq.receive.isSet pending = true
  transmit_empty : q.tx = [] → Irq.transmit.isSet pending = true
  transmit_full : q.tx.length = capacity → Irq.transmit.isSet pending = false

/-- Both interrupts are on, with the thresholds in effect when these are asked for. -/
structure Watches (q : Queues) (t t₂ : Word) : Prop where
  receive : Irq.receive.isSet q.enable = true
  transmit : Irq.transmit.isSet q.enable = true
  rxThreshold : q.rxThreshold.toNat = effectiveRx t
  txThreshold : q.txThreshold.toNat = effectiveTx t₂

lemma Watches.congr {q' : Queues} {t t₂ : Word} (h : q.Watches t t₂) (heq : q'.irqs = q.irqs) :
    q'.Watches t t₂ := by
  have henable : q'.enable = q.enable := congrArg Prod.fst heq
  have htx : q'.txThreshold = q.txThreshold := congrArg (·.2.1) heq
  have hrx : q'.rxThreshold = q.rxThreshold := congrArg (·.2.2) heq
  exact ⟨henable ▸ h.receive, henable ▸ h.transmit, hrx ▸ h.rxThreshold, htx ▸ h.txThreshold⟩

lemma watches_setIrq (q : Queues) (t t₂ : Word) :
    ((q.setIrq .rx true t).setIrq .tx true t₂).Watches t t₂ ∧
      ((q.setIrq .tx true t₂).setIrq .rx true t).Watches t t₂ := by
  constructor
  · refine ⟨?_, ?_, toNat_clampRx t, toNat_clampTx t₂⟩
    · exact (isSet_setIrq _ .rx .tx true t₂).trans (isSet_setIrq q .rx .rx true t)
    · exact isSet_setIrq _ .tx .tx true t₂
  · refine ⟨?_, ?_, toNat_clampRx t, toNat_clampTx t₂⟩
    · exact isSet_setIrq _ .rx .rx true t
    · exact (isSet_setIrq _ .tx .rx true t).trans (isSet_setIrq q .tx .tx true t₂)

lemma Watches.follows {t t₂ : Word} (h : q.Watches t t₂) :
    q.Follows (effectiveRx t) (effectiveTx t₂) q.pending := by
  have hpos := effectiveRx_pos t
  have hle := effectiveRx_le t
  have hlt := effectiveTx_lt t₂
  have hreceive : Irq.receive.isSet q.pending = true ↔ effectiveRx t ≤ q.rx.length := by
    rw [isSet_pending, receivePending, h.receive, h.rxThreshold]
    -- an empty queue is not pending, whatever the threshold
    cases q.rx with
    | nil => simp; omega
    | cons u rest => simp
  have htransmit : Irq.transmit.isSet q.pending = true ↔ q.tx.length ≤ effectiveTx t₂ := by
    rw [isSet_transmit_pending, transmitPending, h.transmit, h.txThreshold, Bool.true_and,
      decide_eq_true_eq]
  refine ⟨hreceive, htransmit, fun hrx => ?_, fun hrx => ?_, fun htx => ?_, fun htx => ?_⟩
  · rw [← Bool.not_eq_true, hreceive, hrx, List.length_nil]
    omega
  · rw [hreceive, hrx]
    exact hle
  · rw [htransmit, htx]
    exact Nat.zero_le _
  · rw [← Bool.not_eq_true, htransmit, htx]
    omega

end Queues

namespace Deed

variable {link : Link} {side : Side} {b b' : Board} {d : Deed}

/-- An interrupt that is off stays off unless a deed switches it on. -/
lemma Leads.disabled (h : d.Leads b b') (hd : ¬ d.Enables link side)
    (hoff : side.irq.isSet (b.queues link).enable = false) :
    side.irq.isSet (b'.queues link).enable = false := by
  have hkept : ∀ {tx rx : Word}, (b'.queues link).irqs = ((b.queues link).enable, tx, rx) →
      side.irq.isSet (b'.queues link).enable = false := by
    intro tx rx heq
    have henable : (b'.queues link).enable = (b.queues link).enable := congrArg Prod.fst heq
    rw [henable, hoff]
  rcases h.cases link with hsame | ⟨a, w, v, rfl, rfl⟩ | ⟨patience, α, f, s, on, t, rfl, hf, hq⟩
  · exact hkept hsame
  · rcases Board.irqs_store link b a w v with hsame | ⟨ha, hv⟩ | ⟨-, hv⟩ | ⟨-, hv⟩
    · exact hkept hsame
    · -- the enables are written, but not with this bit set
      have henable : ((b.store a w v).queues link).enable = w.cut v := congrArg Prod.fst hv
      rw [henable, ← Bool.not_eq_true]
      exact fun hset => hd ⟨ha, hset⟩
    · exact hkept hv
    · exact hkept hv
  · rw [hq, Queues.isSet_setIrq]
    split
    · next hside =>
      -- the call would have to switch this side on
      subst hside
      rw [← Bool.not_eq_true]
      rintro rfl
      exact hd ⟨rfl, hf⟩
    · exact hoff

end Deed

/-- From the one board to the other an interrupt of the channel was switched off: its bit of the
enables is clear, and nothing else has changed. -/
structure Board.SwitchedOff (link : Link) (side : Side) (b b' : Board) : Prop where
  disabled : (b'.queues link).enable.getLsbD side.irq.low = false
  enables : ∀ i ≠ side.irq.low,
    (b'.queues link).enable.getLsbD i = (b.queues link).enable.getLsbD i
  txThreshold : (b'.queues link).txThreshold = (b.queues link).txThreshold
  rxThreshold : (b'.queues link).rxThreshold = (b.queues link).rxThreshold
  queues : b'.queues link = { b.queues link with enable := (b'.queues link).enable }
  beside : Board.Beside link b b'

lemma Board.switchedOff_setIrq (link : Link) (side : Side) (t : Word) (b : Board) :
    SwitchedOff link side b (b.setQueues ((b.queues link).setIrq side false t) link) := by
  have henable : ((b.queues link).setIrq side false t).enable =
      side.irq.putBool false (b.queues link).enable := by cases side <;> rfl
  have hsize : side.irq.size = 1 := by cases side <;> rfl
  have hlow : side.irq.low < 32 := by cases side <;> decide
  refine ⟨?_, fun i hi => ?_, ?_, ?_, ?_, beside_setQueues b _ link⟩ <;> rw [queues_setQueues]
  · rw [henable, ← Field.isSet_eq_getLsbD hsize, Field.isSet_putBool hlow hsize]
  · rw [henable, Field.putBool, Field.getLsbD_put, if_neg (by omega)]
  · cases side <;> rfl
  · cases side <;> rfl
  · cases side <;> rfl

open Link.Call Deed

/-- Both interrupts are switched on, in either order. -/
lemma Board.forM_setIrq_board {link : Link} {t t₂ : Word} {calls : List (Link.Call Unit)}
    (hcalls : calls = [setRxIrq true t, setTxIrq true t₂] ∨
      calls = [setTxIrq true t₂, setRxIrq true t]) (patience : ℕ) (b : Board) :
    ∃ q : Queues, q.Watches t t₂ ∧
      calls.forM (perform patience link) b = .ok () (b.setQueues q link) := by
  have hset : ∀ s s' u u', [setIrq s true u, setIrq s' true u'].forM (perform patience link) b =
      .ok () (b.setQueues (((b.queues link).setIrq s true u).setIrq s' true u') link) := by
    intro s s' u u'
    refine (Proc.bind_of_ok (setIrq_board s true u)).trans ?_
    refine (Proc.bind_of_ok (setIrq_board s' true u')).trans ?_
    rw [queues_setQueues, setQueues_setQueues]
    rfl
  obtain ⟨hrx, htx⟩ := (b.queues link).watches_setIrq t t₂
  rcases hcalls with rfl | rfl
  · exact ⟨_, hrx, hset .rx .tx t t₂⟩
  · exact ⟨_, htx, hset .tx .rx t₂ t⟩

/-- **Thresholds can be reached and left.** On any board both interrupts of a channel can be
switched on, in either order and with any thresholds. From then on, whatever is done that does not
concern the interrupts of the channel, the receive condition holds exactly if the receive queue has
as many units as the threshold in effect, which is never the case of an empty queue and always of a
full one; the transmit condition holds exactly if the transmit queue has no more units than the
threshold in effect, which is always the case of an empty queue and never of a full one. Switching
an interrupt off clears its enable and nothing else, and its condition does not hold until it is
switched on again. -/
theorem interrupts_follow_thresholds (link : Link) (patience : ℕ) (b : Board) :
    (∀ (t t₂ : Word) (calls : List (Link.Call Unit)),
      calls = [setRxIrq true t, setTxIrq true t₂] ∨ calls = [setTxIrq true t₂, setRxIrq true t] →
      ∃ b₁, calls.forM (perform patience link) b = .ok () b₁ ∧
        ∀ deeds b', (∀ d ∈ deeds, ¬ d.Concerns link) → AllLead deeds b₁ b' →
          ∃ pending, pendingIrqs.perform patience link b' = .ok pending b' ∧
            (b'.queues link).Follows (effectiveRx t) (effectiveTx t₂) pending) ∧
    (∀ t, 1 ≤ effectiveRx t ∧ effectiveRx t ≤ Queues.capacity ∧ effectiveTx t < Queues.capacity) ∧
    ∀ (side : Side) (t : Word),
      ∃ b₁, (setIrq side false t).perform patience link b = .ok () b₁ ∧
        b.SwitchedOff link side b₁ ∧
        ∀ deeds b', (∀ d ∈ deeds, ¬ d.Enables link side) → AllLead deeds b₁ b' →
          ∃ pending, pendingIrqs.perform patience link b' = .ok pending b' ∧
            side.irq.isSet pending = false := by
  refine ⟨fun t t₂ calls hcalls => ?_,
    fun t => ⟨effectiveRx_pos t, effectiveRx_le t, effectiveTx_lt t⟩, fun side t => ?_⟩
  · obtain ⟨q, hq, hrun⟩ := Board.forM_setIrq_board hcalls patience b
    refine ⟨_, hrun, fun deeds b' hdeeds hlead => ⟨_, Board.pendingIrqs_board, ?_⟩⟩
    have hstart : ((b.setQueues q link).queues link).Watches t t₂ := by
      rw [Board.queues_setQueues]
      exact hq
    exact (hlead.invariant (P := fun b => (b.queues link).Watches t t₂)
      (fun d hd _ _ hb h => hb.congr (h.sameIrqs (hdeeds d hd))) hstart).follows
  · have hoff := Board.switchedOff_setIrq link side t b
    refine ⟨_, Board.setIrq_board side false t, hoff,
      fun deeds b' hdeeds hlead => ⟨_, Board.pendingIrqs_board, ?_⟩⟩
    refine Queues.isSet_pending_of_disabled (hlead.invariant
      (P := fun b => side.irq.isSet (b.queues link).enable = false)
      (fun d hd _ _ hb h => h.disabled (hdeeds d hd) hb) ?_)
    rw [Field.isSet_eq_getLsbD (by cases side <;> rfl)]
    exact hoff.disabled

/-- A unit comes, one is sent, and another one comes. -/
def Deed.traffic : List Deed :=
  [.operation (.outside (.send .uart 0x41#32)), .call 0 .uart (send .byte [0x42#32]),
    .operation (.outside (.send .uart 0x43#32))]

/-- The uart with these enables and some units in its queues. -/
def Board.uartWith (enable : Word) (tx rx : List Word) : Board where
  uart := { tx, rx, enable, rxThreshold := 2#32 }

lemma Deed.allLead_traffic (enable : Word) :
    AllLead traffic (Board.uartWith enable [] [])
      (Board.uartWith enable [0x42#32] [0x41#32, 0x43#32]) :=
  ⟨Board.uartWith enable [] [0x41#32], rfl, Board.uartWith enable [0x42#32] [0x41#32], ⟨(), rfl⟩,
    _, rfl, rfl⟩

/-- Of the thresholds that are asked for, the second is beyond the capacity. Two units are enough
for the receive condition, and one is too much for the transmit condition. -/
theorem interrupts_follow_thresholds_uart :
    (∀ d ∈ traffic, ¬ d.Concerns .uart) ∧ (∀ d ∈ traffic, ¬ d.Enables .uart .rx) ∧
    ∃ b₁ b₂, [setRxIrq true 2#32, setTxIrq true 9#32].forM (perform 0 .uart) Board.new =
        .ok () b₁ ∧
      AllLead traffic b₁ b₂ ∧
      (∃ pending, pendingIrqs.perform 0 .uart b₂ = .ok pending b₂ ∧
        Irq.receive.isSet pending = true ∧ Irq.transmit.isSet pending = false) ∧
      ∃ b₃ b₄, (setIrq .rx false 2#32).perform 0 .uart b₁ = .ok () b₃ ∧
        (b₃.queues .uart).enable.getLsbD Irq.transmit.low = true ∧ AllLead traffic b₃ b₄ ∧
        ∃ pending, pendingIrqs.perform 0 .uart b₄ = .ok pending b₄ ∧
          Irq.receive.isSet pending = false := by
  have hconcerns : ∀ d ∈ traffic, ¬ d.Concerns .uart := by
    intro d hd
    fin_cases hd <;> simp [Concerns, switch?]
  have henables : ∀ d ∈ traffic, ¬ d.Enables .uart .rx := by
    intro d hd
    fin_cases hd <;> simp [Enables, switch?]
  have hset : [setRxIrq true 2#32, setTxIrq true 9#32].forM (perform 0 .uart) Board.new =
      .ok () (Board.uartWith 3#32 [] []) :=
    (Proc.bind_of_ok (Board.setIrq_board .rx true 2#32)).trans
      (Proc.bind_of_ok (Board.setIrq_board .tx true 9#32))
  have hclear : (setIrq .rx false 2#32).perform 0 .uart (Board.uartWith 3#32 [] []) =
      .ok () (Board.uartWith 1#32 [] []) := Board.setIrq_board .rx false 2#32
  obtain ⟨hon, -, -⟩ := interrupts_follow_thresholds .uart 0 Board.new
  obtain ⟨b₁, hrun, hfollows⟩ := hon 2#32 9#32 _ (.inl rfl)
  cases hset.symm.trans hrun
  obtain ⟨-, -, hoff⟩ := interrupts_follow_thresholds .uart 0 (Board.uartWith 3#32 [] [])
  obtain ⟨b₃, hrun', hswitched, hquiet⟩ := hoff .rx 2#32
  cases hclear.symm.trans hrun'
  obtain ⟨pending, hpending, htells⟩ := hfollows traffic _ hconcerns (allLead_traffic 3#32)
  refine ⟨hconcerns, henables, _, _, hset, allLead_traffic 3#32, ⟨pending, hpending, ?_, ?_⟩, _, _,
    hclear, ?_, allLead_traffic 1#32, hquiet traffic _ henables (allLead_traffic 1#32)⟩
  · exact htells.receive.2 (by decide)
  · rw [← Bool.not_eq_true, htells.transmit]
    decide
  · exact hswitched.enables Irq.transmit.low (by decide)

end BoardSupport
