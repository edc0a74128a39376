import BoardSupport.Peripheral.Timer
import BoardSupport.Proofs.Station

/-!
Reading a counter of 64 bits through two registers of 32 while it goes on.

The counter is a trajectory: its value at the instant of each load, one after the other. It never
falls, and it may go up by any amount from one load to the next. Where the high half is the same
before and after the low half is read, it was the same in between, so the reading is the value at
one instant.
-/

namespace BoardSupport.SystemTimer

def highAddress : ℕ := MemoryMap.system + SystemRegister.timerHigh

def lowAddress : ℕ := MemoryMap.system + SystemRegister.timerLow

/-! ### Halves -/

lemma toNat_high (c : Count) : (high c).toNat = c.toNat / 2 ^ 32 := by
  have hlt := c.isLt
  rw [high, BitVec.extractLsb'_toNat, Nat.shiftRight_eq_div_pow]
  omega

lemma high_append_low (c : Count) : (high c ++ low c : Count) = c := by
  have hlt := c.isLt
  apply BitVec.eq_of_toNat_eq
  rw [BitVec.toNat_append, ← Nat.shiftLeft_add_eq_or_of_lt (low c).isLt, toNat_high, low,
    BitVec.extractLsb'_toNat, Nat.shiftLeft_eq]
  omega

lemma high_le_high {c d : Count} (h : c ≤ d) : (high c).toNat ≤ (high d).toNat := by
  rw [toNat_high, toNat_high]
  exact Nat.div_le_div_right (BitVec.le_def.1 h)

/-! ### Instants -/

/-- The counter never falls. -/
def Rises (c : ℕ → Count) : Prop := ∀ i j, i ≤ j → c i ≤ c j

/-- How often the high half changed from the instant `m` to the instant `n`. -/
def changes (c : ℕ → Count) (m n : ℕ) : ℕ :=
  ((Finset.Ico m n).filter fun i => high (c i) ≠ high (c (i + 1))).card

section

variable {c : ℕ → Count} {m m' k n : ℕ}

/-- A change between two instants is one more than there are later on. -/
lemma changes_lt_changes (hc : high (c m) ≠ high (c m')) (hm : m ≤ m') (hk : m' ≤ k)
    (hn : m' ≤ n) : changes c k n < changes c m n := by
  obtain ⟨i, hi, hne⟩ : ∃ i ∈ Finset.Ico m m', high (c i) ≠ high (c (i + 1)) := by
    by_contra hall
    push Not at hall
    have hsame : ∀ k, m + k ≤ m' → high (c m) = high (c (m + k)) := by
      intro k
      induction k with
      | zero => exact fun _ => rfl
      | succ k ih =>
        intro hk
        rw [ih (by omega), hall (m + k) (Finset.mem_Ico.2 (by omega))]
        rfl
    exact hc (by rw [hsame (m' - m) (by omega), Nat.add_sub_cancel' hm])
  rw [Finset.mem_Ico] at hi
  apply Finset.card_lt_card
  refine (Finset.ssubset_iff_of_subset ?_).2 ⟨i, ?_, ?_⟩
  · exact Finset.filter_subset_filter _ (Finset.Ico_subset_Ico_left (by omega))
  · simp only [Finset.mem_filter, Finset.mem_Ico]
    exact ⟨by omega, hne⟩
  · simp only [Finset.mem_filter, Finset.mem_Ico]
    omega

/-- The high half goes up at every change, so it cannot change as often as it has values. -/
lemma changes_lt (hc : Rises c) (m n : ℕ) : changes c m n < 2 ^ 32 := by
  have hup : ∀ n, m ≤ n → changes c m n + (high (c m)).toNat ≤ (high (c n)).toNat := by
    intro n hn
    induction n, hn using Nat.le_induction with
    | base => simp [changes]
    | succ n hn ih =>
      have hle := high_le_high (hc n (n + 1) (Nat.le_succ n))
      have hsucc : changes c m (n + 1) =
          changes c m n + if high (c n) ≠ high (c (n + 1)) then 1 else 0 := by
        rw [changes, changes, Finset.card_filter, Finset.card_filter, Finset.sum_Ico_succ_top hn]
      rw [hsucc]
      split
      · next hne =>
        have hne' : (high (c n)).toNat ≠ (high (c (n + 1))).toNat :=
          fun he => hne (BitVec.eq_of_toNat_eq he)
        omega
      · omega
  rcases Nat.le_total m n with h | h
  · have hle := hup n h
    have hlt := (high (c n)).isLt
    omega
  · have hempty : Finset.Ico m n = ∅ := Finset.Ico_eq_empty_of_le h
    simp [changes, hempty]

/-- A high half that is the same at two instants is the same in between. -/
lemma high_eq_of_high_eq (hc : Rises c) (h : high (c m) = high (c n)) (hm : m ≤ m') (hn : m' ≤ n) :
    high (c m') = high (c m) := by
  have hleft := high_le_high (hc m m' hm)
  have hright := high_le_high (hc m' n hn)
  apply BitVec.eq_of_toNat_eq
  rw [← h] at hright
  omega

end

/-! ### The machine -/

/-- A machine with a counter that goes on by itself, known by the addresses that it has loaded so
far, and by what else there is to its state. -/
structure Ticking (τ : Type) where
  loads : List ℕ := []
  rest : τ

namespace Ticking

variable {τ α : Type}

/-- The instant of the next load. -/
def now (s : Ticking τ) : ℕ := s.loads.length

def load (c : ℕ → Count) (address : ℕ) (w : Width) : Proc (Ticking τ) Word := fun s =>
  .ok (w.cut (if address = highAddress then high (c s.now)
      else if address = lowAddress then low (c s.now) else 0#32))
    { s with loads := s.loads ++ [address] }

/-- What the timer is read on: records go to `log`, and a wait lasts for `patience` rounds. -/
def platform (c : ℕ → Count) (log : Log.Record → Proc (Ticking τ) Unit) (patience : ℕ) :
    Platform (Ticking τ) where
  load := load c
  store := fun _ _ _ => pure ()
  log := log
  patience := fun _ => patience

/-- A procedure that returns and makes no load. -/
def Aside (x : Proc (Ticking τ) α) : Prop :=
  ∀ s, x.Ends s (fun _ s' => s'.loads = s.loads) fun _ => False

/-- The loads of one pass. -/
def pass : List ℕ := [highAddress, lowAddress, highAddress]

lemma length_passes (k : ℕ) : (List.replicate k pass).flatten.length = 3 * k := by
  simp [pass, Nat.mul_comm]

variable {c : ℕ → Count} {log : Log.Record → Proc (Ticking τ) Unit} {patience : ℕ}
  {s : Ticking τ} {E : Halt → Prop}

lemma ends_readHigh {Q : Word → Ticking τ → Prop} :
    ((registers (platform c log patience)).read SystemRegister.timerHigh).Ends s Q E ↔
      Q (high (c s.now)) { s with loads := s.loads ++ [highAddress] } := by
  rw [Registers.read_eq _ (Controller.base_add_lt (by decide))]
  unfold Proc.Ends
  rfl

lemma ends_readLow {Q : Word → Ticking τ → Prop} :
    ((registers (platform c log patience)).read SystemRegister.timerLow).Ends s Q E ↔
      Q (low (c s.now)) { s with loads := s.loads ++ [lowAddress] } := by
  rw [Registers.read_eq _ (Controller.base_add_lt (by decide))]
  unfold Proc.Ends
  rfl

/-- A pass reads the counter at the instant of its low half, or finds that the high half
changed. -/
lemma ends_sample (hc : Rises c) (hlog : ∀ r, Aside (log r)) :
    (sample (platform c log patience)).Ends s (fun r s' => s'.loads = s.loads ++ pass ∧
      match r with
      | some v => v = c (s.now + 1)
      | none => high (c s.now) ≠ high (c (s.now + 2))) fun _ => False := by
  simp only [sample, Proc.ends_bind, ends_readHigh, ends_readLow]
  have h₁ : now { s with loads := s.loads ++ [highAddress] } = s.now + 1 := by simp [now]
  have h₂ : now { s with loads := s.loads ++ [highAddress] ++ [lowAddress] } = s.now + 2 := by
    simp [now]
  rw [h₁, h₂]
  split
  · next heq =>
    -- both looks at the high half agree, so it was the same between them
    rw [Proc.ends_pure]
    refine ⟨by simp [pass], ?_⟩
    have hmid := high_eq_of_high_eq hc heq (Nat.le_succ _) (Nat.le_succ _)
    rw [← hmid]
    exact high_append_low _
  · next hne =>
    rw [Proc.ends_bind]
    refine (hlog _ _).imp fun _ s' hs' => ?_
    rw [Proc.ends_pure]
    exact ⟨by rw [hs']; simp [pass], hne⟩

/-- The value was read in the last of `k` passes, after a change of the high half in each of the
others. -/
structure Reading (c : ℕ → Count) (k : ℕ) (s : Ticking τ) (v : Count) (s' : Ticking τ) : Prop where
  loads : s'.loads = s.loads ++ (List.replicate (k + 1) pass).flatten
  value : v = c (s.now + 3 * k + 1)
  torn : k ≤ changes c s.now (s.now + 3 * k + 2)

lemma Reading.torn_first {s₁ s' : Ticking τ} {k : ℕ} {v : Count} (h : Reading c k s₁ v s')
    (hpass : s₁.loads = s.loads ++ pass) (hne : high (c s.now) ≠ high (c (s.now + 2))) :
    Reading c (k + 1) s v s' := by
  have hnow : s₁.now = s.now + 3 := by simp [now, hpass, pass]
  refine ⟨?_, ?_, ?_⟩
  · rw [h.loads, hpass, List.append_assoc]
    rfl
  · rw [h.value, hnow]
    congr 1
    omega
  · have htorn := h.torn
    rw [hnow, show s.now + 3 + 3 * k + 2 = s.now + 3 * (k + 1) + 2 by omega] at htorn
    have hmore : changes c (s.now + 3) (s.now + 3 * (k + 1) + 2) <
        changes c s.now (s.now + 3 * (k + 1) + 2) :=
      changes_lt_changes hne (by omega) (by omega) (by omega)
    omega

lemma ends_value (hc : Rises c) (hlog : ∀ r, Aside (log r)) :
    (value (platform c log patience)).Ends s (fun v s' => ∃ k, Reading c k s v s')
      fun e => e = .hang ∧ patience + 1 < 2 ^ 32 := by
  rw [value, Proc.ends_iterate]
  -- every fruitless pass saw the high half change
  suffices hrounds : ∀ n (s : Ticking τ),
      (Platform.rounds (fun _ => do
        match ← sample (platform c log patience) with
        | some c => return .inr c
        | none => return .inl ()) n ()).Ends s (fun v s' => ∃ k, Reading c k s v s')
        fun e => e = .hang ∧ n ≤ changes c s.now (s.now + 3 * n) by
    refine (hrounds _ s).mono (fun _ _ h => h) ?_
    rintro e ⟨rfl, hn⟩
    exact ⟨rfl, lt_of_le_of_lt hn (changes_lt hc _ _)⟩
  intro n
  induction n with
  | zero => exact fun s => Proc.ends_hang.2 ⟨rfl, Nat.zero_le _⟩
  | succ n ih =>
    intro s
    rw [Platform.rounds, Proc.ends_bind, Proc.ends_bind]
    refine ((ends_sample hc hlog).mono ?_ (fun _ h => h.elim))
    rintro (_ | v) s₁ ⟨hpass, hr⟩
    · -- a torn pass has used up a change of the high half
      rw [Proc.ends_pure]
      have hnow : s₁.now = s.now + 3 := by simp [now, hpass, pass]
      refine (ih s₁).mono ?_ ?_
      · rintro v s' ⟨k, h⟩
        exact ⟨k + 1, h.torn_first hpass hr⟩
      · rintro e ⟨rfl, hn⟩
        rw [hnow, show s.now + 3 + 3 * n = s.now + 3 * (n + 1) by omega] at hn
        have hmore : changes c (s.now + 3) (s.now + 3 * (n + 1)) <
            changes c s.now (s.now + 3 * (n + 1)) :=
          changes_lt_changes hr (by omega) (by omega) (by omega)
        exact ⟨rfl, by omega⟩
    · rw [Proc.ends_pure, Proc.ends_pure]
      exact ⟨0, by simp [hpass], hr, Nat.zero_le _⟩

/-! ### Calls -/

/-- The low half was last loaded at this instant. -/
def LastLow (loads : List ℕ) (i : ℕ) : Prop :=
  loads[i]? = some lowAddress ∧ ∀ j, i < j → loads[j]? ≠ some lowAddress

/-- A call that gave the counter at the instant of its last load of the low half, in at most one
pass more than the high half changed. -/
structure Untorn (c : ℕ → Count) (s : Ticking τ) (v : Count) (s' : Ticking τ) : Prop where
  exact : ∃ i, s.now ≤ i ∧ LastLow s'.loads i ∧ v = c i
  passes : ∃ k, s'.loads = s.loads ++ (List.replicate k pass).flatten ∧
    k ≤ changes c s.now (s'.now - 1) + 1

lemma lastLow_pass (l : List ℕ) : LastLow (l ++ pass) (l.length + 1) := by
  refine ⟨by simp [pass], fun j hj => ?_⟩
  rw [List.getElem?_append_right (by omega)]
  rcases Nat.lt_or_ge j (l.length + 3) with hlt | hge
  · rw [show j - l.length = 2 by omega]
    decide
  · rw [List.getElem?_eq_none (by simp [pass]; omega)]
    simp

lemma Reading.untorn {k : ℕ} {v : Count} {s' : Ticking τ} (h : Reading c k s v s') :
    Untorn c s v s' := by
  have hlen := length_passes k
  have hloads : s'.loads = s.loads ++ (List.replicate k pass).flatten ++ pass := by
    rw [h.loads, List.replicate_succ', List.flatten_append, List.flatten_singleton,
      List.append_assoc]
  have hlast := lastLow_pass (s.loads ++ (List.replicate k pass).flatten)
  rw [List.length_append, hlen, ← hloads] at hlast
  have hnow : s'.now - 1 = s.now + 3 * k + 2 := by
    rw [now, hloads, List.length_append, List.length_append, hlen]
    show s.now + 3 * k + 3 - 1 = _
    omega
  refine ⟨⟨s.now + 3 * k + 1, by omega, hlast, h.value⟩, k + 1, h.loads, ?_⟩
  rw [hnow]
  exact Nat.succ_le_succ h.torn

/-- From `s` to `s'` time went on. -/
def Onward (s s' : Ticking τ) : Prop := s.now ≤ s'.now

/-- One reading after the other, each after some other work. -/
def readings (p : Platform (Ticking τ)) :
    List (Proc (Ticking τ) Unit) → Proc (Ticking τ) (List Count)
  | [] => pure []
  | work :: rest => do
    work
    let v ← value p
    let vs ← readings p rest
    return v :: vs

lemma ends_readings (hc : Rises c) (hlog : ∀ r, Aside (log r)) {halts : Halt → Prop}
    (works : List (Proc (Ticking τ) Unit)) (hworks : ∀ x ∈ works, Proc.Keeps Onward halts x)
    (s : Ticking τ) :
    (readings (platform c log patience) works).Ends s
      (fun vs _ => (∀ v ∈ vs, ∃ i, s.now ≤ i ∧ v = c i) ∧ vs.Pairwise (· ≤ ·))
      fun e => e = .hang ∨ halts e := by
  induction works generalizing s with
  | nil => exact (Proc.ends_pure _).2 ⟨by simp, .nil⟩
  | cons work rest ih =>
    simp only [readings, Proc.ends_bind, Proc.ends_pure]
    refine (hworks work List.mem_cons_self s).mono ?_ fun _ h => .inr h
    intro _ s₁ (h₁ : s.now ≤ s₁.now)
    refine (ends_value hc hlog).mono ?_ fun _ h => .inl h.1
    rintro v s₂ ⟨k, h₂⟩
    have hnow : s₂.now = s₁.now + 3 * (k + 1) := by
      rw [now, h₂.loads, List.length_append, length_passes, now]
    refine (ih (fun x hx => hworks x (List.mem_cons_of_mem _ hx)) s₂).imp ?_
    rintro vs s₃ ⟨hlater, hsorted⟩
    refine ⟨?_, List.pairwise_cons.2 ⟨?_, hsorted⟩⟩
    · intro u hu
      rcases List.mem_cons.1 hu with rfl | hu
      · exact ⟨_, by omega, h₂.value⟩
      · obtain ⟨i, hi, rfl⟩ := hlater u hu
        exact ⟨i, by omega, rfl⟩
    · intro u hu
      obtain ⟨i, hi, rfl⟩ := hlater u hu
      rw [h₂.value]
      exact hc _ _ (by omega)

/-- **Wide reads.** Whenever a call returns, its result is the counter at the instant of its last
load of the low half, and it made at most one pass more than the high half changed. The results of
calls one after the other, whatever is done in between, do not fall. A call that may make as many
passes as the high half has values returns. -/
theorem value_untorn (c : ℕ → Count) (hc : Rises c) (log : Log.Record → Proc (Ticking τ) Unit)
    (hlog : ∀ r, Aside (log r)) (patience : ℕ) (s : Ticking τ) :
    (value (platform c log patience)).Ends s (fun v s' => Untorn c s v s')
      (fun e => e = .hang ∧ patience + 1 < 2 ^ 32) ∧
    ∀ (halts : Halt → Prop) (works : List (Proc (Ticking τ) Unit)),
      (∀ x ∈ works, Proc.Keeps Onward halts x) →
      (readings (platform c log patience) works).Ends s (fun vs _ => vs.Pairwise (· ≤ ·))
        fun e => e = .hang ∨ halts e := by
  constructor
  · exact (ends_value hc hlog).imp fun v s' ⟨_, h⟩ => h.untorn
  · intro halts works hworks
    exact (ends_readings hc hlog works hworks s).imp fun vs _ h => h.2

/-- A counter whose low half runs over between the second load and the third. -/
def rollover (i : ℕ) : Count := if i < 2 then 0x4ffffffff#64 else 0x500000002#64

/-- The first pass is torn, and the second gives the value. -/
theorem value_untorn_rollover :
    ∃ s', value (platform rollover (fun _ => pure ()) 3) { rest := () } =
        .ok 0x500000002#64 s' ∧
      s'.loads = pass ++ pass ∧ Untorn rollover { rest := () } 0x500000002#64 s' ∧
      (readings (platform rollover (fun _ => pure ()) 3) [pure (), pure ()]).Ends { rest := () }
        (fun vs _ => vs.Pairwise (· ≤ ·)) fun e => e = .hang ∨ False := by
  have hrises : Rises rollover := by
    intro i j h
    unfold rollover
    split <;> split
    · exact BitVec.le_refl _
    · decide
    · omega
    · exact BitVec.le_refl _
  obtain ⟨hvalue, hreadings⟩ := value_untorn rollover hrises (fun _ => pure ())
    (fun _ _ => (Proc.ends_pure ()).2 rfl) 3 ({ rest := () } : Ticking Unit)
  have hrun : value (platform rollover (fun _ => pure ()) 3) ({ rest := () } : Ticking Unit) =
      .ok 0x500000002#64 { loads := pass ++ pass, rest := () } := rfl
  refine ⟨_, hrun, rfl, hvalue.of_ok hrun, hreadings (fun _ => False) _ fun x hx s => ?_⟩
  obtain rfl : x = pure () := by simpa using hx
  exact (Proc.ends_pure ()).2 (Nat.le_refl s.now)

end Ticking

end BoardSupport.SystemTimer
