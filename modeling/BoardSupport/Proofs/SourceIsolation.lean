import BoardSupport.Proofs.Operations

/-!
What an operation of the interrupt controller on one source does to everything else.

A source has a word among the priorities, a word among the triggers and a bit among the enables.
Enabling and disabling check the number of the source. Configuring does not: from a number beyond
the last source it goes on to addresses beyond the two arrays, and so it may write the trigger of
another source or a register of a channel. The numbers with which it does are `Controller.Strays`.
-/

namespace BoardSupport

/-! ### Registers of the controller -/

namespace Arbiter

variable {a : Arbiter} {id j o : ℕ} {v : Word}

lemma write?_behind (h : SystemRegister.trigger + 4 * Source.count ≤ o) :
    a.write? o v = none := by
  grind [write?, Source.count, SystemRegister.claim, SystemRegister.threshold,
    SystemRegister.enable, SystemRegister.priority, SystemRegister.trigger]

/-- The controller with the priority and the trigger of the source. -/
def setSource (a : Arbiter) (id : ℕ) (priority trigger : Word) : Arbiter :=
  { a with
    priority := a.priority.setIfInBounds id priority
    trigger := a.trigger.setIfInBounds id trigger }

lemma priorityOf_setSource_of_ne (h : j ≠ id) (u v : Word) :
    (a.setSource id u v).priorityOf j = a.priorityOf j := by
  simp only [priorityOf, setSource, Vector.getElem?_setIfInBounds_ne h.symm]

lemma triggerOf_setSource_of_ne (h : j ≠ id) (u v : Word) :
    (a.setSource id u v).triggerOf j = a.triggerOf j := by
  simp only [triggerOf, setSource, Vector.getElem?_setIfInBounds_ne h.symm]

lemma priorityOf_setSource (h : id < Source.count) (u v : Word) :
    (a.setSource id u v).priorityOf id = u := by
  simp [priorityOf, setSource, h]

lemma triggerOf_setSource (h : id < Source.count) (u v : Word) :
    (a.setSource id u v).triggerOf id = .ok v := by
  simp [triggerOf, setSource, h]

/-- The word of enables that holds the source's bit. -/
def enables (a : Arbiter) (id : ℕ) : Word := (a.enable[id / 32]?).getD 0#32

/-- The controller with the enable bit of the source set or cleared. -/
def switch (a : Arbiter) (id : ℕ) (on : Bool) : Arbiter :=
  { a with
    enable := a.enable.setIfInBounds (id / 32)
      (if on then a.enables id ||| (1#32 <<< (id % 32))
        else a.enables id &&& ~~~(1#32 <<< (id % 32))) }

lemma isEnabled_switch (h : id < Source.count) (on : Bool) :
    (a.switch id on).isEnabled j = if j = id then on else a.isEnabled j := by
  have hword := Controller.word_lt h
  by_cases hsame : id / 32 = j / 32
  · -- both bits are in one word
    have hbit : (1#32 <<< (id % 32)).getLsbD (j % 32) = decide (j = id) := by
      simp only [BitVec.getLsbD_shiftLeft, BitVec.getLsbD_one]
      grind
    have hlt : j % 32 < 32 := Nat.mod_lt _ (by decide)
    have hget : (a.switch id on).isEnabled j =
        (if on then a.enables id ||| (1#32 <<< (id % 32))
          else a.enables id &&& ~~~(1#32 <<< (id % 32))).getLsbD (j % 32) := by
      simp only [isEnabled, switch, ← hsame]
      rw [Vector.getElem?_setIfInBounds_self_of_lt hword]
      rfl
    have hold : (a.enables id).getLsbD (j % 32) = a.isEnabled j := by
      simp only [isEnabled, enables, hsame]
    rw [hget]
    cases on <;>
      simp only [Bool.false_eq_true, if_true, if_false, BitVec.getLsbD_or, BitVec.getLsbD_and,
        BitVec.getLsbD_not, hbit, hold, hlt] <;>
      by_cases hj : j = id <;> simp [hj]
  · have hne : j ≠ id := by
      rintro rfl
      exact hsame rfl
    simp only [isEnabled, switch, Vector.getElem?_setIfInBounds_ne hsame, if_neg hne]

end Arbiter

/-! ### Registers of channels -/

lemma Link.mem_all (link : Link) : link ∈ Link.all := by cases link <;> decide

namespace Board

variable {b b' : Board} {a id : ℕ} {v : Word}

/-- At the address is a register of a channel that can be written. -/
def Wired (a : ℕ) : Prop := ∃ link ∈ Link.all, ∃ o ∈ link.layout.writable, a = link.base + o

instance (a : ℕ) : Decidable (Wired a) :=
  inferInstanceAs (Decidable (∃ link ∈ Link.all, ∃ o ∈ link.layout.writable, a = link.base + o))

lemma Wired.ge (h : Wired a) : MemoryMap.uart ≤ a := by
  obtain ⟨link, -, o, -, rfl⟩ := h
  cases link <;>
    simp only [Link.base, MemoryMap.uart, MemoryMap.spi0, MemoryMap.spi1, MemoryMap.i2c] <;>
    omega

lemma Wired.not_add (h : Wired a) : ¬ Wired (a + 0x100) := by
  rintro ⟨m, -, o', ho', heq⟩
  obtain ⟨link, -, o, ho, rfl⟩ := h
  have hlt := link.writable_lt o ho
  have hlt' := m.writable_lt o' ho'
  cases link <;> cases m <;>
    simp only [Link.base, MemoryMap.uart, MemoryMap.spi0, MemoryMap.spi1, MemoryMap.i2c] at heq <;>
    omega

/-- Behind the triggers and beside the channels a store reaches plain memory only. -/
lemma store_unwired (h : ¬ Wired a)
    (hbehind : MemoryMap.system + (SystemRegister.trigger + 4 * Source.count) ≤ a) :
    (b.store a .word v).arbiter = b.arbiter ∧
      ∀ link, (b.store a .word v).queues link = b.queues link := by
  rcases b.store_cases a .word v with ⟨o, arbiter, hplace, hw, -⟩ | ⟨link, o, q, hplace, hw, -⟩ | hs
  · have ha := eq_of_place_system hplace
    rw [Arbiter.write?_behind (by omega)] at hw
    cases hw
  · have ho : o ∈ link.layout.writable :=
      Queues.isSome_write?_iff.1 (Option.isSome_iff_exists.2 ⟨q, hw⟩)
    exact absurd ⟨link, link.mem_all, o, ho, eq_of_place_channel hplace⟩ h
  · exact hs

/-! ### Everything else -/

/-- What the other sources have, the threshold, the claims and the channels are as they were. -/
structure Untouched (id : ℕ) (b b' : Board) : Prop where
  priority : ∀ j ≠ id, b'.arbiter.priorityOf j = b.arbiter.priorityOf j
  trigger : ∀ j ≠ id, b'.arbiter.triggerOf j = b.arbiter.triggerOf j
  enabled : ∀ j ≠ id, b'.arbiter.isEnabled j = b.arbiter.isEnabled j
  pending : ∀ j ≠ id, b'.sourcePending j = b.sourcePending j
  threshold : b'.arbiter.threshold = b.arbiter.threshold
  claimed : b'.arbiter.claimed = b.arbiter.claimed
  events : b'.arbiter.events = b.arbiter.events
  queues : ∀ link, b'.queues link = b.queues link

lemma sourcePending_congr (hraised : b'.arbiter.raised = b.arbiter.raised)
    (hqueues : ∀ link, b'.queues link = b.queues link) (j : ℕ) :
    b'.sourcePending j = b.sourcePending j := by
  simp only [sourcePending, Arbiter.isRaised, hraised, hqueues]

lemma untouched_of_eq (harbiter : b'.arbiter = b.arbiter)
    (hqueues : ∀ link, b'.queues link = b.queues link) : Untouched id b b' where
  priority := fun _ _ => by rw [harbiter]
  trigger := fun _ _ => by rw [harbiter]
  enabled := fun _ _ => by rw [harbiter]
  pending := fun j _ => sourcePending_congr (by rw [harbiter]) hqueues j
  threshold := by rw [harbiter]
  claimed := by rw [harbiter]
  events := by rw [harbiter]
  queues := hqueues

lemma untouched_setSource (u v : Word) :
    Untouched id b { b with arbiter := b.arbiter.setSource id u v } where
  priority := fun _ hj => Arbiter.priorityOf_setSource_of_ne hj u v
  trigger := fun _ hj => Arbiter.triggerOf_setSource_of_ne hj u v
  enabled := fun _ _ => rfl
  pending := fun j _ => sourcePending_congr rfl (queues_arbiter b _) j
  threshold := rfl
  claimed := rfl
  events := rfl
  queues := queues_arbiter b _

lemma untouched_switch (h : id < Source.count) (on : Bool) :
    Untouched id b { b with arbiter := b.arbiter.switch id on } where
  priority := fun _ _ => rfl
  trigger := fun _ _ => rfl
  enabled := fun _ hj => (Arbiter.isEnabled_switch h on).trans (if_neg hj)
  pending := fun j _ => sourcePending_congr rfl (queues_arbiter b _) j
  threshold := rfl
  claimed := rfl
  events := rfl
  queues := queues_arbiter b _

end Board

/-! ### The operations on the board -/

namespace Controller

open Board

variable {σ : Type} {b : Board} {id : Word} {patience : ℕ}

def priorityAddress (id : ℕ) : ℕ := MemoryMap.system + (SystemRegister.priority + id * 4)

def triggerAddress (id : ℕ) : ℕ := MemoryMap.system + (SystemRegister.trigger + id * 4)

lemma triggerAddress_eq (id : ℕ) : triggerAddress id = priorityAddress id + 0x100 := by
  simp only [triggerAddress, priorityAddress, SystemRegister.priority, SystemRegister.trigger]
  omega

def triggerWord (mode : TriggerMode) : Word := if mode = .edge then 1#32 else 0#32

/-- Both words are written, whatever is at their addresses. -/
lemma configure_board (c : SourceConfig) :
    configure (Board.platform patience) id c b =
      .ok () ((b.store (priorityAddress id.toNat) .word c.priority).store
        (triggerAddress id.toNat) .word (triggerWord c.mode)) := by
  have hid : id.toNat < 4294967296 := id.isLt
  have hpriority : (registers (Board.platform patience)).write
      (SystemRegister.priority + id.toNat * 4) c.priority =
      (Board.platform patience).store (priorityAddress id.toNat) .word c.priority := by
    refine Registers.write_eq _ ?_ _
    simp only [registers, MemoryMap.system, SystemRegister.priority, addressLimit, UInt64.size]
    omega
  have htrigger : (registers (Board.platform patience)).write
      (SystemRegister.trigger + id.toNat * 4) (triggerWord c.mode) =
      (Board.platform patience).store (triggerAddress id.toNat) .word (triggerWord c.mode) := by
    refine Registers.write_eq _ ?_ _
    simp only [registers, MemoryMap.system, SystemRegister.trigger, addressLimit, UInt64.size]
    omega
  calc configure (Board.platform patience) id c b
      = ((registers (Board.platform patience)).write (SystemRegister.priority + id.toNat * 4)
          c.priority >>= fun _ => (registers (Board.platform patience)).write
            (SystemRegister.trigger + id.toNat * 4) (triggerWord c.mode)) b := rfl
    _ = _ := by
      rw [hpriority, htrigger]
      rfl

lemma configure_source (hid : id.toNat < Source.count) (c : SourceConfig) :
    configure (Board.platform patience) id c b =
      .ok () { b with arbiter :=
        b.arbiter.setSource id.toNat c.priority (triggerWord c.mode) } := by
  rw [configure_board, priorityAddress, triggerAddress,
    store_system (priority_lt hid) (Arbiter.write?_priority hid _),
    store_system (trigger_lt hid) (Arbiter.write?_trigger hid _)]
  rfl

/-- The enables are read without effect. -/
lemma load_enables (hid : id.toNat < Source.count) :
    b.load (MemoryMap.system + (SystemRegister.enable + id.toNat / 32 * 4)) .word =
      .ok (b.arbiter.enables id.toNat, b) := by
  have hword := word_lt hid
  have hsome : b.arbiter.enable[id.toNat / 32]? = some (b.arbiter.enables id.toNat) := by
    simp [Arbiter.enables, hword]
  rw [load_system b .word (enable_lt hword) (enable_ne_claim _), Arbiter.read?_enable hword, hsome]
  rfl

lemma setBit_source (hid : id.toNat < Source.count) (on : Bool) :
    setBit (Board.platform patience) SystemRegister.enable id on b =
      .ok () { b with arbiter := b.arbiter.switch id.toNat on } := by
  have hword := word_lt hid
  have hlt := enable_lt hword
  have hread : (registers (Board.platform patience)).read
      (SystemRegister.enable + id.toNat / 32 * 4) b = .ok (b.arbiter.enables id.toNat) b := by
    rw [read_eq _ hlt]
    exact platform_load_of_ok (load_enables hid)
  have hwrite : ∀ v, (registers (Board.platform patience)).write
      (SystemRegister.enable + id.toNat / 32 * 4) v b =
        .ok () { b with arbiter :=
          { b.arbiter with enable := b.arbiter.enable.setIfInBounds (id.toNat / 32) v } } := by
    intro v
    rw [write_eq _ hlt]
    show EStateM.Result.ok () (b.store _ .word v) = _
    rw [store_system hlt (Arbiter.write?_enable hword v)]
  unfold setBit bitOf
  rw [if_pos hid, pure_bind]
  exact (Proc.bind_of_ok hread).trans ((Proc.bind_of_ok rfl).trans (hwrite _))

/-- A number out of range ends the operation before any access. -/
lemma setBit_beyond (hid : Source.count ≤ id.toNat) (p : Platform σ) (register : ℕ) (on : Bool) :
    setBit p register id on = Proc.fault (.sourceOutOfRange id.toNat) := by
  unfold setBit bitOf
  rw [if_neg (by omega)]
  rfl

/-! ### Numbers out of range -/

/-- A number whose word among the priorities or among the triggers is something else: the trigger of
a source, or a register of a channel. -/
def Strays (id : ℕ) : Prop :=
  (Source.count ≤ id ∧ id < 2 * Source.count) ∨
    Wired (priorityAddress id) ∨ Wired (triggerAddress id)

instance (id : ℕ) : Decidable (Strays id) :=
  inferInstanceAs (Decidable ((Source.count ≤ id ∧ id < 2 * Source.count) ∨
    Wired (priorityAddress id) ∨ Wired (triggerAddress id)))

lemma behind_priorityAddress {id : ℕ} (h : 2 * Source.count ≤ id) :
    MemoryMap.system + (SystemRegister.trigger + 4 * Source.count) ≤ priorityAddress id := by
  simp only [Source.count, priorityAddress, SystemRegister.trigger, SystemRegister.priority] at h ⊢
  omega

lemma behind_triggerAddress {id : ℕ} (h : Source.count ≤ id) :
    MemoryMap.system + (SystemRegister.trigger + 4 * Source.count) ≤ triggerAddress id := by
  simp only [triggerAddress]
  omega

/-- The channels are far from the controller. -/
lemma le_of_wired {id : ℕ} (h : Wired (priorityAddress id) ∨ Wired (triggerAddress id)) :
    2 * Source.count ≤ id := by
  have hge : MemoryMap.uart ≤ triggerAddress id := by
    rcases h with h | h
    · rw [triggerAddress_eq]
      exact h.ge.trans (Nat.le_add_right _ _)
    · exact h.ge
  simp only [MemoryMap.uart, triggerAddress, MemoryMap.system, SystemRegister.trigger] at hge
  simp only [Source.count]
  omega

lemma configure_untouched (h : ¬ Strays id.toNat) {c : SourceConfig} {b' : Board}
    (hb : configure (Board.platform patience) id c b = .ok () b') : Untouched id.toNat b b' := by
  obtain ⟨hrange, hwired⟩ := not_or.1 h
  obtain ⟨hpriority, htrigger⟩ := not_or.1 hwired
  rcases Nat.lt_or_ge id.toNat Source.count with hid | hid
  · rw [configure_source hid] at hb
    cases hb
    exact untouched_setSource _ _
  · -- behind the tables, and at no register of a channel
    have hfar : 2 * Source.count ≤ id.toNat := by omega
    rw [configure_board] at hb
    cases hb
    obtain ⟨harbiter, hqueues⟩ := store_unwired (b := b) (v := c.priority) hpriority
      (behind_priorityAddress hfar)
    obtain ⟨harbiter', hqueues'⟩ := store_unwired
      (b := b.store (priorityAddress id.toNat) .word c.priority) (v := triggerWord c.mode) htrigger
      (behind_triggerAddress hid)
    exact untouched_of_eq (harbiter'.trans harbiter) fun link =>
      (hqueues' link).trans (hqueues link)

/-- Just beyond the last source the word among the priorities is the trigger of an earlier one. -/
lemma trigger_of_beyond {id j : ℕ} (hj : j < Source.count) (hid : id = Source.count + j)
    (u v : Word) :
    ((b.store (priorityAddress id) .word u).store (triggerAddress id) .word v).arbiter.triggerOf j =
      .ok u := by
  have haddress : priorityAddress id = MemoryMap.system + (SystemRegister.trigger + j * 4) := by
    rw [hid]
    simp only [priorityAddress, SystemRegister.priority, SystemRegister.trigger, Source.count]
    omega
  have hunwired : ¬ Wired (triggerAddress id) := by
    intro h
    have := le_of_wired (.inr h)
    omega
  rw [(store_unwired hunwired (behind_triggerAddress (by omega))).1, haddress,
    store_system (trigger_lt hj) (Arbiter.write?_trigger hj u)]
  simp [Arbiter.triggerOf, hj]

/-- A channel with a unit in each queue, at which every write shows. -/
def atWork : Queues := { tx := [0#32], rx := [0#32] }

def boardAtWork : Board := { uart := atWork, spi0 := atWork, spi1 := atWork, i2c := atWork }

lemma queues_boardAtWork (link : Link) : boardAtWork.queues link = atWork := by
  cases link <;> rfl

lemma write?_atWork (link : Link) : ∀ o ∈ link.layout.writable,
    atWork.write? link.layout o 1#32 ≠ some atWork := by
  cases link <;> decide

lemma store_wired {a : ℕ} (h : Wired a) (hb : ∀ link, b.queues link = atWork) :
    ∃ link, (b.store a .word 1#32).queues link ≠ atWork := by
  obtain ⟨link, -, o, ho, rfl⟩ := h
  obtain ⟨q, hq⟩ := Option.isSome_iff_exists.1 (Queues.isSome_write?_iff.2 ho)
  have hlt : o < MemoryMap.blockSize := (link.writable_lt o ho).trans (by decide)
  refine ⟨link, ?_⟩
  rw [store_channel hlt (by rw [hb]; exact hq), queues_setQueues]
  rintro rfl
  exact write?_atWork link o ho hq

/-- The configuration that writes a one to both words. -/
def ones : SourceConfig := { priority := 1#32, mode := .edge }

lemma configure_touches (h : Strays id.toNat) {b' : Board}
    (hb : configure (Board.platform patience) id ones boardAtWork = .ok () b') :
    ¬ Untouched id.toNat boardAtWork b' := by
  rw [configure_board] at hb
  cases hb
  intro huntouched
  rcases h with ⟨hge, hlt⟩ | hwired
  · -- the priority falls into the table of triggers
    obtain ⟨j, hj⟩ := Nat.exists_eq_add_of_le hge
    have hcount : j < Source.count := by omega
    have hone := trigger_of_beyond (b := boardAtWork) hcount hj ones.priority (triggerWord .edge)
    have hzero : boardAtWork.arbiter.triggerOf j = .ok 0#32 := by
      simp [boardAtWork, Arbiter.triggerOf, hcount]
    have hne : j ≠ id.toNat := by
      simp only [Source.count] at hj
      omega
    cases (hone.symm.trans (huntouched.trigger j hne)).trans hzero
  · have hfar := le_of_wired hwired
    rcases hwired with hpriority | htrigger
    · -- the other word is plain memory, so what the first one did to the channel stands
      obtain ⟨link, hlink⟩ := store_wired hpriority queues_boardAtWork
      have hsecond := (store_unwired (b := boardAtWork.store (priorityAddress id.toNat) .word 1#32)
        (v := 1#32) (triggerAddress_eq id.toNat ▸ hpriority.not_add)
        (behind_triggerAddress (by omega))).2
      apply hlink
      rw [← hsecond link]
      exact (huntouched.queues link).trans (queues_boardAtWork link)
    · have hfirst := (store_unwired (b := boardAtWork) (v := 1#32)
        (fun hpriority => hpriority.not_add (triggerAddress_eq id.toNat ▸ htrigger))
        (behind_priorityAddress hfar)).2
      obtain ⟨link, hlink⟩ := store_wired htrigger
        fun link => (hfirst link).trans (queues_boardAtWork link)
      exact hlink ((huntouched.queues link).trans (queues_boardAtWork link))

end Controller

/-! ### Isolation -/

/-- An operation of the controller on one source. -/
inductive SourceCall where
  | configure (c : SourceConfig)
  | enable
  | disable

namespace SourceCall

open Board Controller

def perform {σ : Type} (p : Platform σ) (id : Word) : SourceCall → Proc σ Unit
  | .configure c => Controller.configure p id c
  | .enable => Controller.enable p id
  | .disable => Controller.disable p id

/-- What the source is like after the operation. -/
def Done (a : Arbiter) (id : ℕ) : SourceCall → Prop
  | .configure c => a.priorityOf id = c.priority ∧ a.triggerOf id = .ok (triggerWord c.mode)
  | .enable => a.isEnabled id = true
  | .disable => a.isEnabled id = false

/-- The controller after the operation. -/
def update (a : Arbiter) (id : ℕ) : SourceCall → Arbiter
  | .configure c => a.setSource id c.priority (triggerWord c.mode)
  | .enable => a.switch id true
  | .disable => a.switch id false

lemma perform_update {id : Word} (hid : id.toNat < Source.count) (call : SourceCall) (patience : ℕ)
    (b : Board) :
    call.perform (Board.platform patience) id b =
      .ok () { b with arbiter := call.update b.arbiter id.toNat } := by
  cases call with
  | configure c => exact configure_source hid c
  | enable => exact (Proc.bind_of_ok rfl).trans (setBit_source hid true)
  | disable => exact (Proc.bind_of_ok rfl).trans (setBit_source hid false)

lemma perform_source {id : Word} (hid : id.toNat < Source.count) (call : SourceCall) (patience : ℕ)
    (b : Board) :
    ∃ b', call.perform (Board.platform patience) id b = .ok () b' ∧
      call.Done b'.arbiter id.toNat ∧ Untouched id.toNat b b' := by
  refine ⟨_, perform_update hid call patience b, ?_⟩
  cases call with
  | configure c =>
    exact ⟨⟨Arbiter.priorityOf_setSource hid _ _, Arbiter.triggerOf_setSource hid _ _⟩,
      untouched_setSource _ _⟩
  | enable =>
    exact ⟨(Arbiter.isEnabled_switch hid true).trans (if_pos rfl), untouched_switch hid true⟩
  | disable =>
    exact ⟨(Arbiter.isEnabled_switch hid false).trans (if_pos rfl), untouched_switch hid false⟩

/-- **Isolation of sources.** On a source of the controller every operation returns, does its work
and leaves everything else alone. With a number out of range enabling and disabling make a log
record and fault, without an access. Configuring never faults, and it leaves everything else alone
exactly with the numbers that do not stray. -/
theorem untouched_iff_not_strays (id : Word) :
    (id.toNat < Source.count → ∀ (call : SourceCall) patience b,
      ∃ b', call.perform (Board.platform patience) id b = .ok () b' ∧
        call.Done b'.arbiter id.toNat ∧ Untouched id.toNat b b') ∧
    (Source.count ≤ id.toNat → ∀ (σ : Type) (p : Platform σ) (call : SourceCall),
      call = .enable ∨ call = .disable → ∃ record, call.perform p id =
        (do p.log record; Proc.fault (.sourceOutOfRange id.toNat))) ∧
    (∀ c patience b, ∃ b', (configure c).perform (Board.platform patience) id b = .ok () b') ∧
    ((∀ c patience b b', (configure c).perform (Board.platform patience) id b = .ok () b' →
      Untouched id.toNat b b') ↔ ¬ Strays id.toNat) := by
  refine ⟨perform_source, fun hid σ p call hcall => ?_, fun c patience b => ⟨_, configure_board c⟩,
    fun hall hstrays => ?_, fun hstrays c patience b b' => configure_untouched hstrays⟩
  · rcases hcall with rfl | rfl
    · exact ⟨_, congrArg (p.log _ >>= fun _ => ·) (setBit_beyond hid p _ true)⟩
    · exact ⟨_, congrArg (p.log _ >>= fun _ => ·) (setBit_beyond hid p _ false)⟩
  · obtain ⟨b', hb⟩ : ∃ b', Controller.configure (Board.platform 0) id ones boardAtWork =
        .ok () b' := ⟨_, configure_board ones⟩
    exact configure_touches hstrays hb (hall ones 0 boardAtWork b' hb)

/-- Source 9 is the second pin. The number 128 is the first beyond both arrays, and the priority of
0x1a0003f5 is the register of the UART's interrupt enables. -/
theorem untouched_iff_not_strays_pin :
    (∃ b', enable.perform (Board.platform 0) 9#32 Board.new = .ok () b' ∧
      b'.arbiter.isEnabled 9 = true ∧ Untouched 9 Board.new b') ∧
    (∀ c patience b b', (configure c).perform (Board.platform patience) 128#32 b = .ok () b' →
      Untouched 128 b b') ∧
    ¬ ∀ c patience b b',
      (configure c).perform (Board.platform patience) 0x1a0003f5#32 b = .ok () b' →
        Untouched 0x1a0003f5 b b' := by
  have hstrays : Strays 0x1a0003f5 := by decide
  refine ⟨(untouched_iff_not_strays 9#32).1 (by decide) .enable 0 Board.new,
    (untouched_iff_not_strays 128#32).2.2.2.2 (by decide), fun hall => ?_⟩
  exact (untouched_iff_not_strays 0x1a0003f5#32).2.2.2.1 hall hstrays

/-- The first number out of range: the priority becomes the trigger of source 0. -/
theorem configure_writes_trigger_of_other :
    Board.new.arbiter.triggerOf 0 = .ok 0#32 ∧
      ∃ b', (configure { priority := 5#32 }).perform (Board.platform 0) 64#32 Board.new =
        .ok () b' ∧ b'.arbiter.triggerOf 0 = .ok 5#32 :=
  ⟨by decide, _, configure_board _, trigger_of_beyond (by decide) (by decide) _ _⟩

end SourceCall

end BoardSupport
