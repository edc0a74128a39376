import Mathlib.Tactic
import BoardSupport.Board.Basic

/-!
Which source the controller presents, and what a claim and its completion leave behind.

Of the sources that qualify, the controller presents the one with the highest priority, and of
several such the one with the lowest number. A claim marks its source, and the completion takes
the mark away again.
-/

namespace BoardSupport.Arbiter

variable {a : Arbiter} {pending : ℕ → Bool} {n id j : ℕ}

/-- Of the sources below `n` that qualify, this one goes first. -/
structure Leads (a : Arbiter) (pending : ℕ → Bool) (n id : ℕ) : Prop where
  lt : id < n
  qualifies : a.qualifies pending id
  highest : ∀ j < n, a.qualifies pending j → a.priorityOf j ≤ a.priorityOf id
  first : ∀ j < id, a.qualifies pending j → a.priorityOf j < a.priorityOf id

lemma Leads.le (h : a.Leads pending n id) (h' : a.Leads pending n j) : id ≤ j := by
  by_contra hlt
  have hj := h.first j (by omega) h'.qualifies
  have hid := h'.highest id h.lt h.qualifies
  bv_omega

lemma Leads.unique (h : a.Leads pending n id) (h' : a.Leads pending n j) : id = j :=
  le_antisymm (h.le h') (h'.le h)

/-- What a look at the sources below `n` finds: the one that goes first, if any qualifies. -/
def Found (a : Arbiter) (pending : ℕ → Bool) (n : ℕ) : Option ℕ → Prop
  | some id => a.Leads pending n id
  | none => ∀ j < n, ¬ a.qualifies pending j

lemma Found.better {best : Option ℕ} (h : a.Found pending n best) :
    a.Found pending (n + 1) (a.better pending best n) := by
  unfold Arbiter.better
  by_cases hq : a.qualifies pending n
  · rw [if_pos hq]
    rcases best with _ | id
    · -- the first source to qualify is the best
      refine ⟨by omega, hq, fun j hj hqj => ?_, fun j hj hqj => absurd hqj (h j hj)⟩
      rcases Nat.lt_succ_iff_lt_or_eq.1 hj with hj | rfl
      · exact absurd hqj (h j hj)
      · exact BitVec.le_refl _
    · -- a later source has to be more urgent, not just as urgent
      dsimp only
      by_cases hlt : a.priorityOf id < a.priorityOf n
      · rw [if_pos hlt]
        refine ⟨by omega, hq, fun j hj hqj => ?_, fun j hj hqj => ?_⟩
        · rcases Nat.lt_succ_iff_lt_or_eq.1 hj with hj | rfl
          · have := h.highest j hj hqj
            bv_omega
          · exact BitVec.le_refl _
        · have := h.highest j hj hqj
          bv_omega
      · rw [if_neg hlt]
        refine ⟨by have := h.lt; omega, h.qualifies, fun j hj hqj => ?_, h.first⟩
        rcases Nat.lt_succ_iff_lt_or_eq.1 hj with hj | rfl
        · exact h.highest j hj hqj
        · bv_omega
  · -- nothing to compare with, and the best so far is kept
    rw [if_neg hq]
    rcases best with _ | id
    · intro j hj
      rcases Nat.lt_succ_iff_lt_or_eq.1 hj with hj | rfl
      · exact h j hj
      · exact hq
    · refine ⟨by have := h.lt; omega, h.qualifies, fun j hj hqj => ?_, h.first⟩
      rcases Nat.lt_succ_iff_lt_or_eq.1 hj with hj | rfl
      · exact h.highest j hj hqj
      · exact absurd hqj hq

lemma found_scan (n : ℕ) : a.Found pending n ((List.range n).foldl (a.better pending) none) := by
  induction n with
  | zero => intro j hj; omega
  | succ n ih =>
    rw [List.range_succ, List.foldl_append]
    exact ih.better

lemma found_present? (a : Arbiter) (pending : ℕ → Bool) :
    a.Found pending Source.count (a.present? pending) := found_scan _

/-- **Arbitration.** The source presented is the one that goes first. -/
theorem present?_eq_some_iff :
    a.present? pending = some id ↔ a.Leads pending Source.count id := by
  have hfound := found_present? a pending
  constructor
  · intro h
    rw [h] at hfound
    exact hfound
  · intro h
    cases hp : a.present? pending with
    | none => rw [hp] at hfound; exact absurd h.qualifies (hfound id h.lt)
    | some j => rw [hp] at hfound; rw [h.unique hfound]

theorem present?_eq_none_iff :
    a.present? pending = none ↔ ∀ j < Source.count, ¬ a.qualifies pending j := by
  have hfound := found_present? a pending
  constructor
  · intro h
    rw [h] at hfound
    exact hfound
  · intro h
    cases hp : a.present? pending with
    | none => rfl
    | some j => rw [hp] at hfound; exact absurd hfound.qualifies (h j hfound.lt)

lemma Leads.not_claimed (h : a.Leads pending n id) : a.isClaimed id = false := by
  have hq := h.qualifies
  simp only [Arbiter.qualifies, Bool.and_eq_true, Bool.not_eq_true'] at hq
  exact hq.1.1.2

/-- The controller after it gave out the source. -/
def taken (a : Arbiter) (id : ℕ) : Arbiter :=
  { a with
    claimed := a.claimed ||| (1#64 <<< id)
    raised := a.raised &&& ~~~(1#64 <<< id)
    events := a.events ++ [.claim id] }

/-- All that a claim can do. -/
lemma claim_cases (a : Arbiter) (pending : ℕ → Bool) :
    (a.present? pending = none ∧ a.claim pending = (Source.count, a)) ∨
    ∃ id, a.present? pending = some id ∧ id < Source.count ∧ a.isClaimed id = false ∧
      a.claim pending = (id, a.taken id) := by
  unfold claim
  cases h : a.present? pending with
  | none => exact .inl ⟨rfl, rfl⟩
  | some id =>
    have hlead := present?_eq_some_iff.1 h
    exact .inr ⟨id, rfl, hlead.lt, hlead.not_claimed, rfl⟩

/-- Taking away the mark that was set for a source gives the marks as they were. -/
lemma unmark_mark {c : BitVec 64} (h : c.getLsbD id = false) :
    (c ||| (1#64 <<< id)) &&& ~~~(1#64 <<< id) = c := by
  ext i hi
  by_cases hid : i = id
  · subst hid
    simpa [← BitVec.getLsbD_eq_getElem] using h
  · have hbit : (1#64 <<< id).getLsbD i = false := by
      simp only [BitVec.getLsbD_shiftLeft, BitVec.getLsbD_one]
      grind
    simp [← BitVec.getLsbD_eq_getElem, hbit, hi]

/-! ### Registers -/

lemma write?_priority (h : id < Source.count) (u : Word) :
    a.write? (SystemRegister.priority + id * 4) u =
      some { a with priority := a.priority.setIfInBounds id u } := by
  have hindex : (SystemRegister.priority + id * 4 - SystemRegister.priority) / 4 = id := by omega
  grind [write?, Source.count, SystemRegister.claim, SystemRegister.threshold,
    SystemRegister.enable, SystemRegister.priority, SystemRegister.trigger]

lemma write?_trigger (h : id < Source.count) (u : Word) :
    a.write? (SystemRegister.trigger + id * 4) u =
      some { a with trigger := a.trigger.setIfInBounds id u } := by
  have hindex : (SystemRegister.trigger + id * 4 - SystemRegister.trigger) / 4 = id := by omega
  grind [write?, Source.count, SystemRegister.claim, SystemRegister.threshold,
    SystemRegister.enable, SystemRegister.priority, SystemRegister.trigger]

lemma write?_enable {word : ℕ} (h : word < 2) (u : Word) :
    a.write? (SystemRegister.enable + word * 4) u =
      some { a with enable := a.enable.setIfInBounds word u } := by
  have hindex : (SystemRegister.enable + word * 4 - SystemRegister.enable) / 4 = word := by omega
  grind [write?, SystemRegister.claim, SystemRegister.threshold, SystemRegister.enable]

lemma read?_enable {word : ℕ} (h : word < 2) :
    a.read? pending (SystemRegister.enable + word * 4) = a.enable[word]? := by
  have hindex : (SystemRegister.enable + word * 4 - SystemRegister.enable) / 4 = word := by omega
  grind [read?, SystemRegister.threshold, SystemRegister.pending, SystemRegister.enable]

/-! ### One source -/

/-- Only this source can be presented, and it is as soon as it is pending. -/
structure Awaits (a : Arbiter) (id : ℕ) : Prop where
  lt : id < Source.count
  enabled : ∀ j < Source.count, a.isEnabled j = true ↔ j = id
  above : a.threshold < a.priorityOf id
  claimed : a.claimed = 0#64
  raised : a.raised = 0#64

lemma Awaits.qualifies_iff (h : a.Awaits id) (hj : j < Source.count) :
    a.qualifies pending j ↔ j = id ∧ pending id := by
  simp only [Arbiter.qualifies, Bool.and_eq_true, h.enabled j hj, isClaimed, h.claimed]
  constructor
  · rintro ⟨⟨⟨rfl, -⟩, -⟩, hp⟩
    exact ⟨rfl, hp⟩
  · rintro ⟨rfl, hp⟩
    exact ⟨⟨⟨rfl, by simp⟩, by simpa using h.above⟩, hp⟩

lemma Awaits.claim_of_pending (h : a.Awaits id) (hp : pending id = true) :
    a.claim pending = (id, a.taken id) := by
  rcases a.claim_cases pending with ⟨hnone, -⟩ | ⟨j, hsome, hlt, -, hclaim⟩
  · exact absurd ((h.qualifies_iff h.lt).2 ⟨rfl, hp⟩) (present?_eq_none_iff.1 hnone id h.lt)
  · obtain ⟨rfl, -⟩ := (h.qualifies_iff hlt).1 (present?_eq_some_iff.1 hsome).qualifies
    exact hclaim

lemma Awaits.present?_isSome (h : a.Awaits id) (pending : ℕ → Bool) :
    (a.present? pending).isSome = pending id := by
  cases hp : a.present? pending with
  | none =>
    have hnot := present?_eq_none_iff.1 hp id h.lt
    rw [h.qualifies_iff h.lt] at hnot
    simpa using hnot
  | some j =>
    have hlead := present?_eq_some_iff.1 hp
    exact (((h.qualifies_iff hlead.lt).1 hlead.qualifies).2).symm

lemma Awaits.claim_of_not_pending (h : a.Awaits id) (hp : pending id = false) :
    a.claim pending = (Source.count, a) := by
  have hnone := h.present?_isSome pending
  rw [hp, Option.isSome_eq_false_iff, Option.isNone_iff_eq_none] at hnone
  rw [claim, hnone]

/-- After its completion a source is awaited again, and two events are on record. -/
lemma Awaits.complete_taken (h : a.Awaits id) :
    (a.taken id).complete id = { a with events := a.events ++ [.claim id, .complete id] } := by
  have hfree : a.claimed.getLsbD id = false := by simp [h.claimed]
  simp [complete, taken, h.lt, unmark_mark hfree, h.raised]

end BoardSupport.Arbiter
