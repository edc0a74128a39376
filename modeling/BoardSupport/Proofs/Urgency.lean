import BoardSupport.Proofs.Agenda
import BoardSupport.Proofs.Station

/-!
What a claim gives, and what the pending bits show.

A source asks for service by a request that is kept for it, or by a condition of its channel that
the channel's enables let through. A claim gives the most urgent of the sources that are eligible:
the one with the highest priority, and of several such the one with the lowest number. If none is
eligible, it reads the number of sources instead of a source, and leaves the board alone.
-/

namespace BoardSupport

/-! ### Who asks for service -/

namespace Queues

variable {q : Queues}

/-- The transmit or the receive condition of the channel holds, and its enable is set. -/
def Signals (q : Queues) : Prop :=
  (Irq.transmit.isSet q.enable ∧ q.tx.length ≤ q.txThreshold.toNat) ∨
    (Irq.receive.isSet q.enable ∧ q.rx ≠ [] ∧ q.rxThreshold.toNat ≤ q.rx.length)

lemma pending_ne_zero_iff : q.pending ≠ 0#32 ↔ q.Signals := by
  have hword : q.pending ≠ 0#32 ↔ q.transmitPending ∨ q.receivePending := by
    unfold pending
    cases q.receivePending <;> cases q.transmitPending <;> decide
  rw [hword]
  simp [transmitPending, receivePending, Signals, and_assoc]

end Queues

namespace Board

variable {b : Board} {id j : ℕ}

/-- A request of the source is kept, or a channel of which it is the source signals. -/
def Pending (b : Board) (id : ℕ) : Prop :=
  b.arbiter.isRaised id ∨ ∃ link : Link, link.source = id ∧ (b.queues link).Signals

lemma sourcePending_iff : b.sourcePending id ↔ b.Pending id := by
  unfold sourcePending Pending
  rw [Bool.or_eq_true, List.any_eq_true]
  refine or_congr_right ⟨?_, ?_⟩
  · rintro ⟨link, -, h⟩
    rw [Bool.and_eq_true, beq_iff_eq, bne_iff_ne] at h
    exact ⟨link, h.1, Queues.pending_ne_zero_iff.1 h.2⟩
  · rintro ⟨link, hid, hsignals⟩
    refine ⟨link, by cases link <;> decide, ?_⟩
    rw [Bool.and_eq_true, beq_iff_eq, bne_iff_ne]
    exact ⟨hid, Queues.pending_ne_zero_iff.2 hsignals⟩

instance (b : Board) (id : ℕ) : Decidable (b.Pending id) := decidable_of_iff _ sourcePending_iff

/-- The source can be given out by a claim. -/
structure Eligible (b : Board) (id : ℕ) : Prop where
  lt : id < Source.count
  enabled : b.arbiter.isEnabled id = true
  unclaimed : b.arbiter.isClaimed id = false
  pending : b.Pending id
  above : b.arbiter.threshold < b.arbiter.priorityOf id

lemma eligible_iff : b.Eligible id ↔ id < Source.count ∧ b.qualifies id := by
  unfold qualifies Arbiter.qualifies
  simp only [Bool.and_eq_true, Bool.not_eq_true', decide_eq_true_eq, sourcePending_iff]
  constructor
  · intro h
    exact ⟨h.lt, ⟨⟨h.enabled, h.unclaimed⟩, h.above⟩, h.pending⟩
  · rintro ⟨hlt, ⟨⟨henabled, hunclaimed⟩, habove⟩, hpending⟩
    exact ⟨hlt, henabled, hunclaimed, hpending, habove⟩

instance (b : Board) (id : ℕ) : Decidable (b.Eligible id) := decidable_of_iff _ eligible_iff.symm

/-- The source is eligible, and every other one that is comes after it. -/
structure MostUrgent (b : Board) (id : ℕ) : Prop where
  eligible : b.Eligible id
  others : ∀ j, j ≠ id → b.Eligible j → b.arbiter.priorityOf j < b.arbiter.priorityOf id ∨
    b.arbiter.priorityOf j = b.arbiter.priorityOf id ∧ id < j

lemma mostUrgent_iff : b.MostUrgent id ↔ b.arbiter.Leads b.sourcePending Source.count id := by
  constructor
  · intro h
    refine ⟨h.eligible.lt, (eligible_iff.1 h.eligible).2, fun j hj hq => ?_, fun j hj hq => ?_⟩
    · rcases eq_or_ne j id with rfl | hne
      · exact BitVec.le_refl _
      · rcases h.others j hne (eligible_iff.2 ⟨hj, hq⟩) with hlt | ⟨heq, -⟩ <;> bv_omega
    · rcases h.others j hj.ne (eligible_iff.2 ⟨hj.trans h.eligible.lt, hq⟩) with hlt | ⟨-, hgt⟩
      · exact hlt
      · omega
  · intro h
    refine ⟨eligible_iff.2 ⟨h.lt, h.qualifies⟩, fun j hne hj => ?_⟩
    obtain ⟨hlt, hq⟩ := eligible_iff.1 hj
    have hle := h.highest j hlt hq
    rcases Nat.lt_or_ge j id with hbefore | hafter
    · -- a lower number would win a tie, so its priority is lower
      exact .inl (h.first j hbefore hq)
    · have : id < j := by omega
      bv_omega

theorem present?_eq_some_iff_mostUrgent : b.present? = some id ↔ b.MostUrgent id :=
  Arbiter.present?_eq_some_iff.trans mostUrgent_iff.symm

theorem present?_eq_none_iff_eligible : b.present? = none ↔ ∀ id, ¬ b.Eligible id := by
  refine Arbiter.present?_eq_none_iff.trans (forall_congr' fun id => ?_)
  rw [eligible_iff, not_and]
  rfl

instance (b : Board) (id : ℕ) : Decidable (b.MostUrgent id) :=
  decidable_of_iff _ present?_eq_some_iff_mostUrgent

end Board

/-! ### Pending bits -/

namespace Arbiter

variable {a : Arbiter} {pending : ℕ → Bool} {word i : ℕ}

/-- Bit by bit, the word shows its 32 sources. -/
lemma getLsbD_pendingWord (hi : i < 32) :
    (pendingWord pending word).getLsbD i = pending (word * 32 + i) := by
  -- after `n` sources the first `n` bits are as they will be, and the others are clear
  have hscan : ∀ n, ((List.range n).foldl (fun acc bit =>
      if pending (word * 32 + bit) then acc ||| (1#32 <<< bit) else acc) 0#32).getLsbD i =
        (decide (i < n) && pending (word * 32 + i)) := by
    intro n
    induction n with
    | zero => simp
    | succ n ih =>
      have hbit : (1#32 <<< n).getLsbD i = decide (i = n) := by
        simp only [BitVec.getLsbD_shiftLeft, BitVec.getLsbD_one]
        grind
      rw [List.range_succ, List.foldl_append, List.foldl_cons, List.foldl_nil]
      split
      · rw [BitVec.getLsbD_or, ih, hbit]
        grind
      · rw [ih]
        grind
  rw [pendingWord, hscan, decide_eq_true hi, Bool.true_and]

lemma read?_pending (h : word < 2) :
    a.read? pending (SystemRegister.pending + word * 4) = some (pendingWord pending word) := by
  have hindex : (SystemRegister.pending + word * 4 - SystemRegister.pending) / 4 = word := by omega
  grind [read?, SystemRegister.threshold, SystemRegister.pending]

end Arbiter

namespace Controller

variable {b : Board} {id : Word} {patience : ℕ}

/-- What is left of a word under the mask of one bit tells that bit. -/
lemma and_bit_bne_zero (v : Word) {i : ℕ} (hi : i < 32) :
    (v &&& (1#32 <<< i) != 0#32) = v.getLsbD i := by
  have hne : BitVec.twoPow 32 i ≠ 0#32 := by
    intro h
    have hbit := congrArg (BitVec.getLsbD · i) h
    simp [hi] at hbit
  rw [← BitVec.twoPow_eq, BitVec.and_twoPow]
  cases v.getLsbD i <;> simp [hne]

/-- The bit of a source in a register of the controller that is read without effect. -/
lemma getBit_board (hid : id.toNat < Source.count) {register : ℕ} {v : Word}
    (hload : b.load (MemoryMap.system + (register + id.toNat / 32 * 4)) .word = .ok (v, b))
    (hlt : register + id.toNat / 32 * 4 < MemoryMap.blockSize) :
    getBit (Board.platform patience) register id b = .ok (v.getLsbD (id.toNat % 32)) b := by
  have hread : (registers (Board.platform patience)).read (register + id.toNat / 32 * 4) b =
      .ok v b := by
    rw [read_eq _ hlt]
    exact Board.platform_load_of_ok hload
  unfold getBit bitOf
  rw [if_pos hid, pure_bind, ← and_bit_bne_zero v (Nat.mod_lt _ (by decide))]
  exact Proc.bind_of_ok hread

lemma isPending_board (hid : id.toNat < Source.count) :
    isPending (Board.platform patience) id b = .ok (b.sourcePending id.toNat) b := by
  have hword := word_lt hid
  have hlt : SystemRegister.pending + id.toNat / 32 * 4 < MemoryMap.blockSize := by
    simp only [SystemRegister.pending, MemoryMap.blockSize]
    omega
  have hne : SystemRegister.pending + id.toNat / 32 * 4 ≠ SystemRegister.claim := by
    simp only [SystemRegister.pending, SystemRegister.claim]
    omega
  have hload : b.load (MemoryMap.system + (SystemRegister.pending + id.toNat / 32 * 4)) .word =
      .ok (Arbiter.pendingWord b.sourcePending (id.toNat / 32), b) := by
    rw [Board.load_system b .word hlt hne, Arbiter.read?_pending hword]
    rfl
  have hid' : id.toNat / 32 * 32 + id.toNat % 32 = id.toNat := by omega
  rw [isPending, getBit_board hid hload hlt,
    Arbiter.getLsbD_pendingWord (Nat.mod_lt _ (by decide)), hid']

/-! ### Claims -/

/-- A claim takes the source that the board presents. -/
lemma claim_board :
    claim (Board.platform patience) b =
      match b.present? with
      | some id => .ok (some (BitVec.ofNat 32 id)) { b with arbiter := b.arbiter.taken id }
      | none => .ok none b := by
  rw [claim_eq]
  refine (Proc.bind_of_ok (Board.platform_load_of_ok (b.load_claim .word))).trans ?_
  rcases b.arbiter.claim_cases b.sourcePending with ⟨hnone, hclaim⟩ | ⟨id, hsome, hlt, -, hclaim⟩
  · rw [hclaim, show b.present? = none from hnone]
    rfl
  · rw [hclaim, show b.present? = some id from hsome, Width.cut_word]
    dsimp only
    rw [if_pos (Source.ofNat_lt hlt)]
    rfl

/-- **Urgency.** A claim always returns. It gives a source exactly if that is the most urgent one,
which is then marked as claimed and has no request any more. It gives nothing exactly if no source
is eligible, and then the board is as it was. The pending bit of a source is read without effect,
and shows whether the source asks for service. -/
theorem claim_gives_most_urgent (b : Board) (patience : ℕ) :
    (∃ given b', claim (Board.platform patience) b = .ok given b' ∧
      (∀ id : Word, given = some id ↔ b.MostUrgent id.toNat) ∧
      (∀ id : Word, given = some id → b' = { b with arbiter := b.arbiter.taken id.toNat }) ∧
      (given = none ↔ ∀ id, ¬ b.Eligible id) ∧ (given = none → b' = b)) ∧
    ∀ id : Word, id.toNat < Source.count →
      ∃ shown, isPending (Board.platform patience) id b = .ok shown b ∧
        (shown = true ↔ b.Pending id.toNat) := by
  refine ⟨?_, fun id hid => ⟨_, isPending_board hid, Board.sourcePending_iff⟩⟩
  rw [claim_board]
  cases hp : b.present? with
  | none =>
    have hnone := Board.present?_eq_none_iff_eligible.1 hp
    refine ⟨none, b, rfl, fun id => ?_, nofun, iff_of_true rfl hnone, fun _ => rfl⟩
    exact iff_of_false nofun fun h => hnone _ h.eligible
  | some id =>
    have hmost := Board.present?_eq_some_iff_mostUrgent.1 hp
    have hid : (BitVec.ofNat 32 id).toNat = id := Source.toNat_ofNat hmost.eligible.lt
    refine ⟨some (BitVec.ofNat 32 id), _, rfl, fun j => ?_, fun j h => ?_, ?_, nofun⟩
    · rw [← Board.present?_eq_some_iff_mostUrgent, hp, Option.some.injEq, Option.some.injEq]
      constructor
      · rintro rfl
        exact hid.symm
      · intro h
        exact BitVec.eq_of_toNat_eq (hid.trans h)
    · cases h
      rw [hid]
    · exact iff_of_false nofun fun h => h id hmost.eligible

/-- Sources 9 and 10 ask with the same priority, and the unit in the uart with a lower one. Source 8
is claimed, source 11 is not enabled, and source 12 is at the threshold. -/
def contested : Board where
  uart := { rx := [0x41#32], enable := 2#32, rxThreshold := 1#32 }
  arbiter :=
    { priority := Vector.ofFn fun id =>
        if id.val = 0 then 4#32 else if id.val = 9 ∨ id.val = 10 then 5#32
        else if id.val = 12 then 3#32 else 7#32
      enable := #v[0x1701#32, 0#32]
      threshold := 3#32
      raised := 0x1f00#64
      claimed := 0x100#64 }

theorem claim_gives_most_urgent_contested :
    contested.MostUrgent 9 ∧ contested.Eligible 0 ∧ contested.Eligible 10 ∧
      (∃ b', claim (Board.platform 0) contested = .ok (some 9#32) b' ∧
        b' = { contested with arbiter := contested.arbiter.taken 9 }) ∧
      (∃ shown, isPending (Board.platform 0) 0#32 contested = .ok shown contested ∧
        (shown = true ↔ contested.Pending 0)) := by
  have hmost : contested.MostUrgent 9 := by decide +kernel
  obtain ⟨⟨given, b', hclaim, hgiven, htaken, -⟩, hpending⟩ := claim_gives_most_urgent contested 0
  have h9 : given = some 9#32 := (hgiven 9#32).2 hmost
  refine ⟨hmost, by decide +kernel, by decide +kernel, ⟨b', ?_, htaken 9#32 h9⟩,
    hpending 0#32 (by decide)⟩
  rw [hclaim, h9]

end Controller

end BoardSupport
