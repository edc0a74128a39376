import Mathlib.Tactic
import BoardSupport.Board.Basic

/-!
What one access does to the board.

An address belongs to the system controller, to one channel, or to plain memory. A load changes
the board only at the claim register and at the receive data registers.
-/

namespace BoardSupport

/-- Address of the receive data register. -/
def Link.dataAddress (link : Link) : ℕ := link.base + (link.layout.rx + QueueRegister.data)

lemma Link.data_lt (link : Link) :
    link.layout.rx + QueueRegister.data < MemoryMap.blockSize := by
  cases link <;> decide

/-- Offsets of the registers of a channel that are read without effect. -/
def Layout.readable (l : Layout) : List ℕ :=
  [l.tx + QueueRegister.capacity, l.tx + QueueRegister.length, l.rx + QueueRegister.capacity,
    l.rx + QueueRegister.length, l.enable, l.pending, l.txThreshold, l.rxThreshold]

/-- Offsets of the registers of a channel that can be written. -/
def Layout.writable (l : Layout) : List ℕ :=
  [l.tx + QueueRegister.clear, l.tx + QueueRegister.data, l.rx + QueueRegister.clear, l.enable,
    l.txThreshold, l.rxThreshold]

lemma Link.readable_lt (link : Link) : ∀ o ∈ link.layout.readable,
    o < MemoryMap.blockSize ∧ o ≠ link.layout.rx + QueueRegister.data := by
  cases link <;> decide

/-- The registers that can be written are close together. -/
lemma Link.writable_lt (link : Link) : ∀ o ∈ link.layout.writable, o < 0x40 := by
  cases link <;> decide

lemma Queues.isSome_read?_iff {q : Queues} {l : Layout} {o : ℕ} :
    (q.read? l o).isSome ↔ o ∈ l.readable := by
  unfold read?
  simp only [Layout.readable, List.mem_cons, List.not_mem_nil, or_false]
  split_ifs <;> simp [*]

lemma Queues.isSome_write?_iff {q : Queues} {l : Layout} {o : ℕ} {v : Word} :
    (q.write? l o v).isSome ↔ o ∈ l.writable := by
  unfold write?
  simp only [Layout.writable, List.mem_cons, List.not_mem_nil, or_false]
  split_ifs <;> simp [*]

/-- At the offset a channel has no register of its queues or interrupts, but plain memory. -/
structure Layout.Plain (l : Layout) (o : ℕ) : Prop where
  lt : o < MemoryMap.blockSize
  not_readable : o ∉ l.readable
  not_writable : o ∉ l.writable
  ne_data : o ≠ l.rx + QueueRegister.data

/-- Address of the claim register. -/
def claimAddress : ℕ := MemoryMap.system + SystemRegister.claim

namespace Board

variable (b : Board)

@[simp] lemma queues_setQueues (q : Queues) (link : Link) :
    (b.setQueues q link).queues link = q := by
  cases link <;> rfl

lemma queues_setQueues_of_ne (q : Queues) {link l : Link} (h : l ≠ link) :
    (b.setQueues q link).queues l = b.queues l := by
  cases link <;> cases l <;> first | rfl | exact absurd rfl h

@[simp] lemma setQueues_arbiter (q : Queues) (link : Link) :
    (b.setQueues q link).arbiter = b.arbiter := by
  cases link <;> rfl

@[simp] lemma queues_arbiter (a : Arbiter) (link : Link) :
    Board.queues { b with arbiter := a } link = b.queues link := by
  cases link <;> rfl

lemma sourcePending_source (link : Link) :
    b.sourcePending link.source =
      (b.arbiter.isRaised link.source || (b.queues link).pending != 0#32) := by
  cases link <;> simp [sourcePending, Link.all, Link.source, Source.uart, Source.spi0, Source.spi1,
    Source.i2c]

lemma memory_poke (a : ℕ) (v : Word) : (b.poke a v).memory a = v := if_pos rfl

lemma memory_poke_of_ne {a a' : ℕ} (h : a' ≠ a) (v : Word) : (b.poke a v).memory a' = b.memory a' :=
  if_neg h

@[simp] lemma queues_poke (a : ℕ) (v : Word) (link : Link) :
    (b.poke a v).queues link = b.queues link := by
  cases link <;> rfl

lemma poke_memory (a : ℕ) : b.poke a (b.memory a) = b := by
  unfold poke
  congr
  funext a'
  split_ifs with h
  · rw [h]
  · rfl

lemma poke_poke (a : ℕ) (v v' : Word) : (b.poke a v).poke a v' = b.poke a v' := by
  unfold poke
  congr
  funext a'
  dsimp only
  split_ifs <;> rfl

/-! ### Places -/

lemma place_system {o : ℕ} (h : o < MemoryMap.blockSize) :
    place (MemoryMap.system + o) = .system o := by
  simp [place, inBlock, h]

lemma place_claimAddress : place claimAddress = .system SystemRegister.claim :=
  place_system (by decide)

lemma place_channel (link : Link) {o : ℕ} (h : o < MemoryMap.blockSize) :
    place (link.base + o) = .channel link o := by
  simp only [MemoryMap.blockSize] at h
  cases link <;>
    simp [place, inBlock, Link.all, Link.base, MemoryMap.system, MemoryMap.uart, MemoryMap.spi0,
      MemoryMap.spi1, MemoryMap.i2c, MemoryMap.blockSize, List.find?] <;>
    grind

lemma eq_of_place_system {a o : ℕ} (h : place a = .system o) : a = MemoryMap.system + o := by
  unfold place at h
  split at h
  · next hb =>
    simp only [inBlock, Bool.and_eq_true, decide_eq_true_eq] at hb
    have ho := Place.system.inj h
    omega
  · split at h <;> cases h

lemma eq_of_place_channel {a o : ℕ} {link : Link} (h : place a = .channel link o) :
    a = link.base + o := by
  unfold place at h
  split at h
  · cases h
  · split at h
    · next l hf =>
      have hb := List.find?_some hf
      simp only [inBlock, Bool.and_eq_true, decide_eq_true_eq] at hb
      obtain ⟨rfl, ho⟩ := Place.channel.inj h
      omega
    · cases h

/-! ### Loads -/

lemma load_claim (w : Width) :
    b.load claimAddress w =
      .ok (w.cut (BitVec.ofNat 32 (b.arbiter.claim b.sourcePending).1),
        { b with arbiter := (b.arbiter.claim b.sourcePending).2 }) := by
  unfold load
  rw [place_claimAddress]
  rfl

lemma load_data (link : Link) (w : Width) :
    b.load link.dataAddress w =
      match (b.queues link).take? with
      | some (unit, q) => .ok (w.cut unit, b.setQueues q link)
      | none => .error (.emptyQueueRead link.dataAddress) := by
  unfold load Link.dataAddress
  rw [place_channel link link.data_lt]
  exact if_pos rfl

/-- A register of a channel other than the receive data register is read without effect. -/
lemma load_register (link : Link) (w : Width) {o : ℕ} (h : o < MemoryMap.blockSize)
    (hne : o ≠ link.layout.rx + QueueRegister.data) :
    b.load (link.base + o) w =
      .ok (w.cut (((b.queues link).read? link.layout o).getD (b.memory (link.base + o))), b) := by
  unfold load
  rw [place_channel link h]
  simp [hne]

lemma load_plain {link : Link} {o : ℕ} (h : link.layout.Plain o) (w : Width) :
    b.load (link.base + o) w = .ok (w.cut (b.memory (link.base + o)), b) := by
  have hnone : (b.queues link).read? link.layout o = none := by
    rw [← Option.not_isSome_iff_eq_none, Queues.isSome_read?_iff]
    exact h.not_readable
  rw [load_register b link w h.lt h.ne_data, hnone, Option.getD_none]

/-- A register of the system controller other than the claim register is read without effect. -/
lemma load_system {o : ℕ} (w : Width) (h : o < MemoryMap.blockSize)
    (hne : o ≠ SystemRegister.claim) :
    b.load (MemoryMap.system + o) w =
      .ok (w.cut ((b.arbiter.read? b.sourcePending o).getD (b.memory (MemoryMap.system + o))),
        b) := by
  unfold load
  rw [place_system h]
  simp [hne]

/-- What a load gives. -/
def shown (address : ℕ) (w : Width) : Except Fault Word := (b.load address w).map Prod.fst

/-- A load does not notice what is poked elsewhere. -/
lemma shown_poke_of_ne {a a' : ℕ} (h : a' ≠ a) (v : Word) (w : Width) :
    (b.poke a v).shown a' w = b.shown a' w := by
  have hpending : (b.poke a v).sourcePending = b.sourcePending := by
    funext id
    simp only [sourcePending, queues_poke]
    rfl
  unfold shown load
  rw [hpending, memory_poke_of_ne b h]
  cases place a' with
  | system o =>
    dsimp only
    split_ifs <;> rfl
  | channel link o =>
    simp only [queues_poke]
    split_ifs
    · cases (b.queues link).take? <;> rfl
    · rfl
  | memory => rfl

variable {b}

/-- All that a load can do. -/
lemma load_cases {b' : Board} {a : ℕ} {w : Width} {v : Word} (h : b.load a w = .ok (v, b')) :
    (a ≠ claimAddress ∧ (∀ link : Link, a ≠ link.dataAddress) ∧ b' = b) ∨
    (a = claimAddress ∧ v = w.cut (BitVec.ofNat 32 (b.arbiter.claim b.sourcePending).1) ∧
      b' = { b with arbiter := (b.arbiter.claim b.sourcePending).2 }) ∨
    ∃ link unit q, a = Link.dataAddress link ∧ (b.queues link).take? = some (unit, q) ∧
      v = w.cut unit ∧ b' = b.setQueues q link := by
  by_cases hc : a = claimAddress
  · -- the claim register hands out a source
    subst hc
    rw [load_claim] at h
    cases h
    exact .inr (.inl ⟨rfl, rfl, rfl⟩)
  by_cases hd : ∃ link : Link, a = link.dataAddress
  · -- a data register hands out a unit, or faults for want of one
    obtain ⟨link, rfl⟩ := hd
    rw [load_data] at h
    split at h
    · next unit q hq =>
      cases h
      exact .inr (.inr ⟨link, unit, q, rfl, hq, rfl, rfl⟩)
    · cases h
  · -- a load from anywhere else changes nothing
    refine .inl ⟨hc, fun link hl => hd ⟨link, hl⟩, ?_⟩
    unfold load at h
    split at h
    · next o ho =>
      rw [if_neg (by rintro rfl; exact hc (eq_of_place_system ho))] at h
      cases h; rfl
    · next link o ho =>
      rw [if_neg (by rintro rfl; exact hd ⟨link, eq_of_place_channel ho⟩)] at h
      cases h; rfl
    · cases h; rfl

/-- A load fails only at the data register of an empty receive queue. -/
lemma load_error {a : ℕ} {w : Width} {f : Fault} (h : b.load a w = .error f) :
    ∃ link, a = Link.dataAddress link ∧ (b.queues link).take? = none ∧ f = .emptyQueueRead a := by
  unfold load at h
  split at h
  · split at h <;> cases h
  · next link o ho =>
    split at h
    · next hd =>
      split at h
      · cases h
      · next hq =>
        cases h
        exact ⟨link, by rw [eq_of_place_channel ho, hd]; rfl, hq, rfl⟩
    · cases h
  · cases h

lemma platform_load_of_ok {b' : Board} {a patience : ℕ} {w : Width} {v : Word}
    (h : b.load a w = .ok (v, b')) : (platform patience).load a w b = .ok v b' := by
  simp only [platform, h]

lemma platform_load_of_error {a patience : ℕ} {w : Width} {f : Fault}
    (h : b.load a w = .error f) : (platform patience).load a w b = .error (.fault f) b := by
  simp only [platform, h]

/-! ### Stores -/

lemma store_claim (v : Word) :
    b.store claimAddress .word v = { b with arbiter := b.arbiter.complete v.toNat } := by
  unfold store
  rw [place_claimAddress]
  rfl

lemma store_system {o : ℕ} {v : Word} {a : Arbiter} (h : o < MemoryMap.blockSize)
    (ha : b.arbiter.write? o v = some a) :
    b.store (MemoryMap.system + o) .word v = { b with arbiter := a } := by
  unfold store
  rw [place_system h]
  simp [ha]

lemma store_channel {link : Link} {o : ℕ} {v : Word} {q : Queues} (h : o < MemoryMap.blockSize)
    (hq : (b.queues link).write? link.layout o v = some q) :
    b.store (link.base + o) .word v = b.setQueues q link := by
  unfold store
  rw [place_channel link h]
  simp [hq]

lemma store_plain {link : Link} {o : ℕ} (h : link.layout.Plain o) (v : Word) :
    b.store (link.base + o) .word v = b.poke (link.base + o) v := by
  have hnone : (b.queues link).write? link.layout o v = none := by
    rw [← Option.not_isSome_iff_eq_none, Queues.isSome_write?_iff]
    exact h.not_writable
  unfold store
  rw [place_channel link h.lt]
  simp only [Width.cut_word, hnone]

/-- Only the claim register completes a source. -/
lemma store_claimed_of_ne {a : ℕ} (h : a ≠ claimAddress) (w : Width) (v : Word) :
    (b.store a w v).arbiter.claimed = b.arbiter.claimed ∧
      (b.store a w v).arbiter.events = b.arbiter.events := by
  unfold store
  dsimp only
  split
  · next o ho =>
    -- only a store to the claim register completes a source
    have hne : o ≠ SystemRegister.claim := by
      rintro rfl
      exact h (eq_of_place_system ho)
    split
    · next arbiter harb =>
      unfold Arbiter.write? at harb
      rw [if_neg hne] at harb
      split_ifs at harb <;> cases harb <;> exact ⟨rfl, rfl⟩
    · split
      · unfold scratch; split <;> exact ⟨rfl, rfl⟩
      · exact ⟨rfl, rfl⟩
  · split
    · exact ⟨by rw [setQueues_arbiter], by rw [setQueues_arbiter]⟩
    · exact ⟨rfl, rfl⟩
  · exact ⟨rfl, rfl⟩

lemma store_queues_of_place {link : Link} {a : ℕ} (h : ∀ o, place a ≠ .channel link o) (w : Width)
    (v : Word) : (b.store a w v).queues link = b.queues link := by
  unfold store
  dsimp only
  split
  · split
    · exact queues_arbiter ..
    · split
      · unfold scratch; split <;> cases link <;> rfl
      · cases link <;> rfl
  · next l o ho =>
    have hl : link ≠ l := by rintro rfl; exact h o ho
    split
    · exact queues_setQueues_of_ne _ _ hl
    · cases link <;> rfl
  · cases link <;> rfl

end Board

end BoardSupport
