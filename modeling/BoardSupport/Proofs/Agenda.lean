import Mathlib.Data.List.Sort
import BoardSupport.Proofs.Access
import BoardSupport.Proofs.Arbitration

/-!
The order in which the sources of a board are served.

The sources that qualify make up the agenda, the highest priority first and of equal priorities the
lowest number. The controller presents the first of them. One that was claimed and completed is
off the agenda, unless its channel still signals; then the agenda is what it was.
-/

namespace BoardSupport

lemma Source.toNat_ofNat {id : ℕ} (h : id < Source.count) : (BitVec.ofNat 32 id).toNat = id := by
  simp only [Source.count] at h
  rw [BitVec.toNat_ofNat]
  omega

lemma Source.ofNat_lt {id : ℕ} (h : id < Source.count) :
    (BitVec.ofNat 32 id).toNat < Source.count := by
  rwa [Source.toNat_ofNat h]

namespace Arbiter

variable {a : Arbiter}

/-- Source `i` goes before source `j`, or is the same. -/
def Precedes (a : Arbiter) (i j : ℕ) : Prop :=
  a.priorityOf j < a.priorityOf i ∨ a.priorityOf i = a.priorityOf j ∧ i ≤ j

instance : DecidableRel a.Precedes := fun _ _ => inferInstanceAs (Decidable (_ ∨ _))

instance : Std.Total a.Precedes := ⟨fun i j => by unfold Precedes; bv_omega⟩

instance : IsTrans ℕ a.Precedes := ⟨fun i j k hij hjk => by unfold Precedes at *; bv_omega⟩

instance : Std.Antisymm a.Precedes := ⟨fun i j hij hji => by unfold Precedes at *; bv_omega⟩

end Arbiter

namespace Board

variable {b b' : Board} {id j : ℕ} {l : List ℕ}

def qualifies (b : Board) (id : ℕ) : Bool := b.arbiter.qualifies b.sourcePending id

/-- The sources that qualify. -/
def waiting (b : Board) : List ℕ := (List.range Source.count).filter b.qualifies

/-- The sources that qualify, in the order in which they are served. -/
def agenda (b : Board) : List ℕ := b.waiting.insertionSort b.arbiter.Precedes

/-- Whether a channel of the source signals a condition. -/
def signals (b : Board) (id : ℕ) : Bool :=
  Link.all.any fun link => link.source == id && (b.queues link).pending != 0#32

lemma mem_waiting : id ∈ b.waiting ↔ id < Source.count ∧ b.qualifies id := by
  simp [waiting]

lemma mem_agenda : id ∈ b.agenda ↔ id < Source.count ∧ b.qualifies id := by
  rw [agenda, List.mem_insertionSort, mem_waiting]

lemma agenda_perm (b : Board) : b.agenda.Perm b.waiting := List.perm_insertionSort _ _

lemma agenda_length (b : Board) : b.agenda.length = b.waiting.length := b.agenda_perm.length_eq

lemma agenda_nodup (b : Board) : b.agenda.Nodup :=
  b.agenda_perm.nodup_iff.2 (List.nodup_range.filter _)

lemma agenda_sorted (b : Board) : b.agenda.Pairwise b.arbiter.Precedes :=
  List.pairwise_insertionSort _ _

/-- There is only one order in which the sources can be served. -/
lemma eq_agenda (hsorted : l.Pairwise b.arbiter.Precedes) (hnodup : l.Nodup)
    (hmem : ∀ id, id ∈ l ↔ id < Source.count ∧ b.qualifies id) : l = b.agenda := by
  refine List.Perm.eq_of_pairwise' hsorted b.agenda_sorted ?_
  exact (List.perm_ext_iff_of_nodup hnodup b.agenda_nodup).2 fun id =>
    (hmem id).trans mem_agenda.symm

lemma leads_of_agenda (h : b.agenda = id :: l) :
    b.arbiter.Leads b.sourcePending Source.count id := by
  have hsorted := b.agenda_sorted
  rw [h, List.pairwise_cons] at hsorted
  obtain ⟨hlt, hq⟩ := mem_agenda.1 (h ▸ List.mem_cons_self)
  -- every other source that qualifies comes later on the agenda
  have hlater : ∀ j < Source.count, b.qualifies j → b.arbiter.Precedes id j := by
    intro j hj hqj
    have hmem : j ∈ id :: l := h ▸ mem_agenda.2 ⟨hj, hqj⟩
    rcases List.mem_cons.1 hmem with rfl | hmem
    · exact .inr ⟨rfl, le_rfl⟩
    · exact hsorted.1 j hmem
  refine ⟨hlt, hq, fun j hj hqj => ?_, fun j hj hqj => ?_⟩
  · rcases hlater j hj hqj with hp | ⟨hp, -⟩ <;> bv_omega
  · -- of equal priorities the lower number would stand first on the agenda
    rcases hlater j (hj.trans hlt) hqj with hp | ⟨-, hle⟩
    · exact hp
    · omega

/-- The controller presents the first source of the agenda. -/
theorem present?_eq_head? (b : Board) : b.present? = b.agenda.head? := by
  cases h : b.agenda with
  | nil =>
    refine Arbiter.present?_eq_none_iff.2 fun j hj hq => ?_
    have hmem := mem_agenda.2 ⟨hj, hq⟩
    rw [h] at hmem
    cases hmem
  | cons id l => exact Arbiter.present?_eq_some_iff.2 (leads_of_agenda h)

/-! ### One source served -/

/-- Between the two boards the source was claimed and completed, and only its own channel may have
changed. -/
structure Served (id : ℕ) (b b' : Board) : Prop where
  arbiter : b'.arbiter = (b.arbiter.taken id).complete id
  others : ∀ link : Link, link.source ≠ id → b'.queues link = b.queues link

lemma signals_congr (h : ∀ link : Link, link.source = id → b'.queues link = b.queues link) :
    b'.signals id = b.signals id := by
  unfold signals
  refine congrArg Link.all.any (funext fun link => ?_)
  by_cases hl : link.source = id
  · rw [h link hl]
  · rw [beq_eq_false_iff_ne.2 hl, Bool.false_and, Bool.false_and]

lemma signals_source (b : Board) (link : Link) :
    b.signals link.source = ((b.queues link).pending != 0#32) := by
  cases link <;> simp [signals, Link.all, Link.source, Source.uart, Source.spi0, Source.spi1,
    Source.i2c]

lemma signals_of_ne (h : ∀ link : Link, link.source ≠ id) : b.signals id = false := by
  refine List.any_eq_false.2 fun link _ => ?_
  simp [h link]

lemma Served.signals_of_ne (h : Served id b b') (hj : j ≠ id) : b'.signals j = b.signals j :=
  signals_congr fun link hl => h.others link (by omega)

lemma Served.priorityOf (h : Served id b b') : b'.arbiter.priorityOf = b.arbiter.priorityOf := by
  rw [h.arbiter]
  rfl

lemma Served.qualifies (h : Served id b b') (hlead : b.present? = some id)
    (hj : j < Source.count) :
    b'.qualifies j = if j = id then b'.signals id else b.qualifies j := by
  have hlead := Arbiter.present?_eq_some_iff.1 hlead
  have hclaimed : b'.arbiter.claimed = b.arbiter.claimed := by
    rw [h.arbiter]
    simp only [Arbiter.complete, Arbiter.taken, if_pos hlead.lt]
    exact Arbiter.unmark_mark hlead.not_claimed
  have hraised : b'.arbiter.isRaised j = (b.arbiter.isRaised j && j != id) := by
    simp only [Source.count] at hj
    rw [h.arbiter]
    simp only [Arbiter.complete, Arbiter.taken, Arbiter.isRaised, BitVec.getLsbD_and,
      BitVec.getLsbD_not, BitVec.getLsbD_shiftLeft, BitVec.getLsbD_one]
    grind
  have hrest : b'.qualifies j = (b.arbiter.isEnabled j && !b.arbiter.isClaimed j &&
      decide (b.arbiter.threshold < b.arbiter.priorityOf j) &&
        (b'.arbiter.isRaised j || b'.signals j)) := by
    unfold Board.qualifies Arbiter.qualifies Arbiter.isClaimed
    rw [h.priorityOf, hclaimed, show b'.arbiter.isEnabled j = b.arbiter.isEnabled j by
      rw [h.arbiter]; rfl, show b'.arbiter.threshold = b.arbiter.threshold by rw [h.arbiter]; rfl]
    rfl
  rw [hrest, hraised]
  split_ifs with hid
  · -- it has been taken and completed, so only its line still speaks for it
    subst hid
    have hq := hlead.qualifies
    simp only [Arbiter.qualifies, Bool.and_eq_true] at hq
    simp [hq.1.1.1, hlead.not_claimed, of_decide_eq_true hq.1.2]
  · rw [h.signals_of_ne hid, show (j != id) = true by simpa using hid, Bool.and_true]
    rfl

lemma Served.precedes (h : Served id b b') : b'.arbiter.Precedes = b.arbiter.Precedes := by
  unfold Arbiter.Precedes
  rw [h.priorityOf]

/-- A source that signals no more is off the agenda. -/
lemma Served.agenda_of_silent (h : Served id b b') (hagenda : b.agenda = id :: l)
    (hsilent : b'.signals id = false) : b'.agenda = l := by
  have hlead : b.present? = some id := by rw [present?_eq_head?, hagenda]; rfl
  have hsorted := b.agenda_sorted
  have hnodup := b.agenda_nodup
  rw [hagenda, List.pairwise_cons] at hsorted
  rw [hagenda, List.nodup_cons] at hnodup
  refine (eq_agenda (h.precedes ▸ hsorted.2) hnodup.2 fun j => ?_).symm
  have hmem : j ∈ id :: l ↔ j < Source.count ∧ b.qualifies j := by rw [← hagenda, mem_agenda]
  constructor
  · intro hj
    obtain ⟨hlt, hq⟩ := hmem.1 (List.mem_cons_of_mem _ hj)
    have hne : j ≠ id := by rintro rfl; exact hnodup.1 hj
    exact ⟨hlt, by rw [h.qualifies hlead hlt, if_neg hne]; exact hq⟩
  · -- a source that came anew would have to be the one that was served
    rintro ⟨hlt, hq⟩
    rw [h.qualifies hlead hlt, hsilent] at hq
    split_ifs at hq with hid
    exact (List.mem_cons.1 (hmem.2 ⟨hlt, hq⟩)).resolve_left hid

/-- A source that goes on to signal stays on the agenda. -/
lemma Served.agenda_of_signals (h : Served id b b') (hlead : b.present? = some id)
    (hsignals : b'.signals id = true) : b'.agenda = b.agenda := by
  refine (eq_agenda (h.precedes ▸ b.agenda_sorted) b.agenda_nodup fun j => ?_).symm
  rw [mem_agenda]
  refine and_congr_right fun hlt => ?_
  rw [h.qualifies hlead hlt, hsignals]
  split_ifs with hid
  · subst hid
    exact iff_of_true (Arbiter.present?_eq_some_iff.1 hlead).qualifies rfl
  · rfl

end Board

end BoardSupport
