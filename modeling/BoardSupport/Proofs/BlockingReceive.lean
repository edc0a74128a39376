import BoardSupport.Proofs.Conservation
import BoardSupport.Proofs.Separation

/-!
A blocking receive reads a queue in order.

For each unit it was asked for, it waits until the length register shows that there is one and takes
the first. So whatever the peers do between its accesses, it gives the first of the units that
waited or came, and leaves the others. Where nobody sends, it returns if as many units wait as it
was asked for, and else takes them all and waits for ever.
-/

namespace BoardSupport

/-! ### Waiting -/

section

variable {σ : Type} {p : Platform σ} {condition : Proc σ Bool} {s : σ}

/-- A wait ends where its condition was found to hold, and it goes on for as long as the condition
is found not to. -/
lemma Proc.stops_await_of_ends {R : σ → σ → Prop} [IsPreorder σ R] {P : Bool → σ → Prop}
    (h : ∀ s, condition.Ends s (fun r s' => R s s' ∧ P r s') fun _ => False) :
    (p.await condition).Stops s (fun _ s' => R s s' ∧ P true s')
      (fun e s' => e = .hang ∧ R s s' ∧ P false s') := by
  refine Proc.stops_await (I := R s) (fun s₁ h₁ => ?_) (refl_of R s)
  refine (h s₁).stops.mono (fun r s₂ h₂ => ?_) fun _ _ he => he
  have hboth : R s s₂ := trans_of R h₁ h₂.1
  cases r with
  | true => exact ⟨hboth, h₂.2⟩
  | false => exact ⟨hboth, rfl, hboth, h₂.2⟩

lemma Platform.await_of_true (h : condition s = .ok true s) : p.await condition s = .ok () s := by
  unfold await iterate
  exact Platform.rounds_of_inr (Proc.bind_of_ok h) (p.patience s)

lemma Platform.await_of_false (h : condition s = .ok false s) :
    p.await condition s = .error .hang s := by
  unfold await iterate
  induction p.patience s + 1 with
  | zero => rfl
  | succ n ih => rw [Platform.rounds_of_inl (Proc.bind_of_ok h) n, ih]

end

/-! ### Among peers -/

namespace Station

variable {η τ : Type} {link : Link} {s s' s'' : Station η τ} {us vs : List Word}
  {log : Log.Record → Proc (Station η τ) Unit} {patience : ℕ}

/-- From `s` to `s'` these units were drained from the channel, in order. -/
def Gave (link : Link) (us : List Word) (s s' : Station η τ) : Prop :=
  ∃ t, s'.trace = s.trace ++ t ∧ drained link t = us ∧
    s.rx link ++ accepted link t = us ++ s'.rx link

lemma Apart.gave (h : Apart link s s') : Gave link [] s s' := by
  obtain ⟨t, ht, hd, hq, -⟩ := h
  exact ⟨t, ht, hd, hq.symm⟩

lemma Gave.trans (h : Gave link us s s') (h' : Gave link vs s' s'') :
    Gave link (us ++ vs) s s'' := by
  obtain ⟨t, ht, rfl, hq⟩ := h
  obtain ⟨t', ht', rfl, hq'⟩ := h'
  refine ⟨t ++ t', by rw [ht', ht, List.append_assoc], drained_append, ?_⟩
  rw [← drained_append]
  exact queue_append hq hq'

/-- The wait for a unit. -/
lemma stops_awaitUnit :
    ((platform log patience).await
      (do return (← (link.channel (platform log patience)).rxLength) != 0#32)).Stops s
      (fun _ s' => Apart link s s' ∧ s'.rx link ≠ [])
      (fun e s' => e = .hang ∧ Apart link s s' ∧
        BitVec.ofNat 32 (s'.rx link).length = 0#32) := by
  have hcondition : ∀ s : Station η τ,
      (do return (← (link.channel (platform log patience)).rxLength) != 0#32 :
        Proc (Station η τ) Bool).Ends s (fun r s' => Apart link s s' ∧
          r = (BitVec.ofNat 32 (s'.rx link).length != 0#32)) fun _ => False := by
    intro s
    rw [Proc.ends_bind]
    refine ends_rxLength_word.imp ?_
    rintro _ s' ⟨h, rfl⟩
    exact (Proc.ends_pure _).2 ⟨h, rfl⟩
  refine (Proc.stops_await_of_ends hcondition).mono ?_ ?_
  · rintro _ s' ⟨h, hne⟩
    refine ⟨h, fun hnil => ?_⟩
    simp [hnil] at hne
  · rintro e s' ⟨he, h, hzero⟩
    exact ⟨he, h, by simpa using hzero.symm⟩

/-- What is returned is what was drained, and until there is enough the wait goes on. -/
lemma stops_recv (w : Width) (n : ℕ) :
    ((link.channel (platform log patience)).recv w n).Stops s
      (fun units s' => ∃ us, Gave link us s s' ∧ us.length = n ∧ units = us.map w.cut)
      (fun e s' => e = .hang ∧ BitVec.ofNat 32 (s'.rx link).length = 0#32 ∧
        ∃ us, Gave link us s s' ∧ us.length < n) := by
  induction n generalizing s with
  | zero => exact (Proc.stops_pure _).2 ⟨[], Apart.gave (refl_of _ s), rfl, rfl⟩
  | succ n ih =>
    rw [Channel.recv, Proc.stops_bind]
    refine stops_awaitUnit.mono ?_ ?_
    · -- there is a unit to take before the rest is waited for
      rintro _ s₁ ⟨h₁, hne⟩
      rw [Proc.stops_bind]
      refine (ends_readUnit w hne).stops.mono ?_ fun _ _ h => h
      rintro _ s₂ ⟨v, t, rfl, ht, hd, hq, -⟩
      have h₂ : Gave link [v] s s₂ := h₁.gave.trans ⟨t, ht, hd, hd ▸ hq⟩
      rw [Proc.stops_bind]
      refine ih.mono ?_ ?_
      · rintro _ s₃ ⟨us, h₃, hlength, rfl⟩
        exact (Proc.stops_pure _).2 ⟨v :: us, h₂.trans h₃, congrArg (· + 1) hlength, rfl⟩
      · rintro e s₃ ⟨he, hzero, us, h₃, hlength⟩
        exact ⟨he, hzero, v :: us, h₂.trans h₃, Nat.succ_lt_succ hlength⟩
    · -- what was waited for never came, so nothing more is taken
      rintro e s₁ ⟨he, h₁, hzero⟩
      exact ⟨he, hzero, [], h₁.gave, Nat.succ_pos n⟩

end Station

/-! ### Alone -/

namespace Board

variable {link : Link} {b : Board} {patience : ℕ}

lemma rxLength_board : (link.channel (platform patience)).rxLength b =
    .ok (BitVec.ofNat 32 (b.queues link).rx.length) b := by
  have hread : (b.queues link).read? link.layout (link.layout.rx + QueueRegister.length) =
      some (BitVec.ofNat 32 (b.queues link).rx.length) := by cases link <;> rfl
  rw [Link.rxLength_eq]
  refine platform_load_of_ok ?_
  rw [load_register b link .word (by cases link <;> decide) (by cases link <;> decide), hread]
  rfl

lemma readUnit_board (w : Width) {v : Word} {rest : List Word}
    (h : (b.queues link).rx = v :: rest) :
    (link.channel (platform patience)).readUnit w b =
      .ok (w.cut v) (b.setQueues { b.queues link with rx := rest } link) := by
  rw [Link.readUnit_eq]
  refine Proc.bind_of_ok (platform_load_of_ok ?_)
  rw [load_data, Queues.take?, h]
  rfl

/-- The wait for a unit is over at once, or never. -/
lemma awaitUnit_board (h : (b.queues link).rx.length < 2 ^ 32) :
    (platform patience).await
      (do return (← (link.channel (platform patience)).rxLength) != 0#32) b =
      if (b.queues link).rx = [] then .error .hang b else .ok () b := by
  have hcondition : (do return (← (link.channel (platform patience)).rxLength) != 0#32 :
      Proc Board Bool) b = .ok (BitVec.ofNat 32 (b.queues link).rx.length != 0#32) b :=
    Proc.bind_of_ok rxLength_board
  cases hrx : (b.queues link).rx with
  | nil =>
    rw [hrx] at hcondition
    exact Platform.await_of_false hcondition
  | cons v rest =>
    have hne : (BitVec.ofNat 32 (b.queues link).rx.length != 0#32) = true := by
      rw [hrx, List.length_cons] at h ⊢
      rw [bne_iff_ne]
      bv_omega
    rw [hne] at hcondition
    exact Platform.await_of_true hcondition

lemma recv_board (h : (b.queues link).rx.length < 2 ^ 32) (w : Width) (n : ℕ) :
    (link.channel (platform patience)).recv w n b =
      if n ≤ (b.queues link).rx.length then
        .ok (((b.queues link).rx.take n).map w.cut)
          (b.setQueues { b.queues link with rx := (b.queues link).rx.drop n } link)
      else .error .hang (b.setQueues { b.queues link with rx := [] } link) := by
  have hlaw := queuesCell_lawful link
  induction n generalizing b with
  | zero =>
    show EStateM.Result.ok [] b = .ok [] ((queuesCell link).put ((queuesCell link).get b) b)
    rw [hlaw.put_get]
  | succ n ih =>
    rw [Channel.recv]
    cases hrx : (b.queues link).rx with
    | nil =>
      -- nobody sends while the board is polled
      have hempty : b.setQueues { b.queues link with rx := [] } link = b := by
        rw [← hrx]
        exact hlaw.put_get b
      rw [hempty, if_neg (by simp)]
      exact Proc.bind_of_error ((awaitUnit_board h).trans (if_pos hrx))
    | cons v rest =>
      have htaken : (b.setQueues { b.queues link with rx := rest } link).queues link =
          { b.queues link with rx := rest } := queues_setQueues ..
      have hrest := ih (b := b.setQueues { b.queues link with rx := rest } link)
        (by rw [hrx] at h; rw [htaken]; exact Nat.lt_of_succ_lt h)
      rw [htaken] at hrest
      refine (Proc.bind_of_ok ((awaitUnit_board h).trans (if_neg (by simp [hrx])))).trans ?_
      refine (Proc.bind_of_ok (readUnit_board w hrx)).trans ?_
      by_cases hn : n ≤ rest.length
      · rw [if_pos hn] at hrest
        have hle : n + 1 ≤ (v :: rest).length := Nat.succ_le_succ hn
        rw [if_pos hle]
        refine (Proc.bind_of_ok hrest).trans ?_
        exact congrArg (EStateM.Result.ok _) (hlaw.put_put _ _ b)
      · rw [if_neg hn] at hrest
        have hlt : ¬ n + 1 ≤ (v :: rest).length := fun hle => hn (Nat.le_of_succ_le_succ hle)
        rw [if_neg hlt]
        refine (Proc.bind_of_error hrest).trans ?_
        exact congrArg (EStateM.Result.error _) (hlaw.put_put _ _ b)

end Board

/-- **A blocking receive is a read in order.** Whatever happens outside between its accesses, it
gives the first `n` of the units that waited and of those that the peer got in, it leaves the rest
of them, and it halts only in a wait for a unit. On a board alone, whose queue is no longer than its
length register can tell, it returns if `n` units wait. Else it takes all of them, and no patience
is enough. -/
theorem recv_in_order {η τ : Type} (link : Link) (w : Width) (n patience : ℕ) :
    (∀ (log : Log.Record → Proc (Station η τ) Unit) (s : Station η τ),
      ((link.channel (Station.platform log patience)).recv w n).Stops s
        (fun units s' => ∃ t, s'.trace = s.trace ++ t ∧
          n ≤ (s.rx link ++ Station.accepted link t).length ∧
          units = ((s.rx link ++ Station.accepted link t).take n).map w.cut ∧
          s'.rx link = (s.rx link ++ Station.accepted link t).drop n)
        (fun e s' => e = .hang ∧ BitVec.ofNat 32 (s'.rx link).length = 0#32 ∧
          ∃ t, s'.trace = s.trace ++ t ∧
            ∃ k < n, s'.rx link = (s.rx link ++ Station.accepted link t).drop k)) ∧
    ∀ b : Board, (b.queues link).rx.length < 2 ^ 32 →
      (n ≤ (b.queues link).rx.length →
        (link.channel (Board.platform patience)).recv w n b =
          .ok (((b.queues link).rx.take n).map w.cut)
            (b.setQueues { b.queues link with rx := (b.queues link).rx.drop n } link)) ∧
      ((b.queues link).rx.length < n →
        (link.channel (Board.platform patience)).recv w n b =
          .error .hang (b.setQueues { b.queues link with rx := [] } link)) := by
  refine ⟨fun log s => (Station.stops_recv w n).mono ?_ ?_,
    fun b hb => ⟨fun hn => ?_, fun hn => ?_⟩⟩
  · rintro _ s' ⟨us, ⟨t, ht, -, hq⟩, hlength, rfl⟩
    refine ⟨t, ht, ?_, ?_, ?_⟩
    · rw [hq, List.length_append, hlength]
      exact Nat.le_add_right n _
    · rw [hq, List.take_left' hlength]
    · rw [hq, List.drop_left' hlength]
  · rintro e s' ⟨he, hzero, us, ⟨t, ht, -, hq⟩, hlength⟩
    exact ⟨he, hzero, t, ht, _, hlength, by rw [hq, List.drop_left]⟩
  · rw [Board.recv_board hb, if_pos hn]
  · rw [Board.recv_board hb, if_neg (Nat.not_le.2 hn)]

/-- Two units wait at the uart, the second too wide for a byte. -/
def twoWaiting : Board where
  uart := { rx := [0x41#32, 0x142#32] }

theorem recv_in_order_twoWaiting :
    (Link.uart.channel (Board.platform 8)).recv .byte 2 twoWaiting =
        .ok [0x41#32, 0x42#32] { twoWaiting with uart := {} } ∧
      (Link.uart.channel (Board.platform 8)).recv .byte 3 twoWaiting =
        .error .hang { twoWaiting with uart := {} } := by
  have hfits : (twoWaiting.queues .uart).rx.length < 2 ^ 32 := by decide
  constructor
  · exact ((recv_in_order (η := Unit) (τ := Unit) .uart .byte 2 8).2 twoWaiting hfits).1 (by decide)
  · exact ((recv_in_order (η := Unit) (τ := Unit) .uart .byte 3 8).2 twoWaiting hfits).2 (by decide)

end BoardSupport
