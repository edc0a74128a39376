import BoardSupport.Proofs.Agenda
import BoardSupport.Proofs.Operations

/-!
What the record of the claim protocol tells about the controller.

A ledger keeps the claims, completions and requests of a run in the order in which they happen. The
last event of a source says whether the source is claimed, and the requests since its last claim say
whether it is pending. An operation turns the controller in one of four ways, and each of them keeps
the ledger and the controller in agreement.
-/

namespace BoardSupport

/-! ### Events of a source -/

namespace ClaimEvent

def source : ClaimEvent → ℕ
  | .claim id => id
  | .complete id => id

/-- The last event that mentions the source. -/
def lastOf? (id : ℕ) (events : List ClaimEvent) : Option ClaimEvent :=
  (events.filter fun e => e.source = id).getLast?

variable {id : ℕ} {e : ClaimEvent} {events earlier later : List ClaimEvent}

lemma lastOf?_snoc :
    lastOf? id (events ++ [e]) = if e.source = id then some e else lastOf? id events := by
  unfold lastOf?
  split_ifs with h <;> simp [h]

/-- A source whose last event is no claim was completed after each of its claims. -/
lemma complete_mem (h : lastOf? id (earlier ++ .claim id :: later) ≠ some (.claim id)) :
    .complete id ∈ later := by
  induction later using List.reverseRecOn with
  | nil => simp [lastOf?_snoc, source] at h
  | append_singleton later e ih =>
    rw [← List.cons_append, ← List.append_assoc, lastOf?_snoc] at h
    split_ifs at h with he
    · cases e with
      | claim j =>
        -- then the source would be held at the end
        cases he
        exact absurd rfl h
      | complete j =>
        obtain rfl : j = id := he
        exact List.mem_append_right _ List.mem_cons_self
    · exact List.mem_append_left _ (ih h)

/-- Between any two claims of a source there is a completion of it. -/
def Alternates (events : List ClaimEvent) : Prop :=
  ∀ id earlier between later, events = earlier ++ .claim id :: (between ++ .claim id :: later) →
    .complete id ∈ between

lemma Alternates.snoc (h : Alternates events)
    (he : ∀ id, e = .claim id → lastOf? id events ≠ some (.claim id)) :
    Alternates (events ++ [e]) := by
  intro id earlier between later hsplit
  rcases List.eq_nil_or_concat later with rfl | ⟨later, e', rfl⟩
  · -- the second of the two claims is the new event
    have hassoc : earlier ++ .claim id :: (between ++ [.claim id]) =
        (earlier ++ .claim id :: between) ++ [.claim id] := by simp
    rw [hassoc] at hsplit
    obtain ⟨hevents, hlast⟩ := List.append_inj' hsplit rfl
    have hfree := he id (List.singleton_inj.1 hlast)
    rw [hevents] at hfree
    exact complete_mem hfree
  · -- both claims are older than the new event
    have hassoc : earlier ++ .claim id :: (between ++ .claim id :: later.concat e') =
        (earlier ++ .claim id :: (between ++ .claim id :: later)) ++ [e'] := by simp
    rw [hassoc] at hsplit
    exact h id earlier between later (List.append_inj' hsplit rfl).1

end ClaimEvent

/-! ### Bits of the controller -/

namespace Arbiter

variable {a : Arbiter} {id j : ℕ}

lemma getLsbD_bit (id j : ℕ) :
    (1#64 <<< id).getLsbD j = (decide (j < Source.count) && decide (j = id)) := by
  simp only [BitVec.getLsbD_shiftLeft, BitVec.getLsbD_one, Source.count]
  grind

lemma isClaimed_taken (h : id < Source.count) :
    (a.taken id).isClaimed j = (decide (j = id) || a.isClaimed j) := by
  simp only [isClaimed, taken, BitVec.getLsbD_or, getLsbD_bit]
  grind

/-- A bit that is cleared. -/
lemma getLsbD_clear (c : BitVec 64) (id j : ℕ) :
    (c &&& ~~~(1#64 <<< id)).getLsbD j = (!decide (j = id) && c.getLsbD j) := by
  have hlt : c.getLsbD j = true → j < 64 := BitVec.lt_of_getLsbD
  simp only [BitVec.getLsbD_and, BitVec.getLsbD_not, getLsbD_bit, Source.count]
  grind

lemma isRaised_taken : (a.taken id).isRaised j = (!decide (j = id) && a.isRaised j) :=
  getLsbD_clear _ _ _

lemma isRaised_asked : (a.asked id).isRaised j =
    (a.isRaised j || decide (j < Source.count) && decide (j = id)) := by
  simp only [isRaised, asked, BitVec.getLsbD_or, getLsbD_bit]

lemma isClaimed_complete : (a.complete id).isClaimed j = (!decide (j = id) && a.isClaimed j) := by
  unfold isClaimed complete
  dsimp only
  split_ifs with h
  · exact getLsbD_clear _ _ _
  · have hlt : a.claimed.getLsbD j = true → j < 64 := BitVec.lt_of_getLsbD
    simp only [Source.count] at h
    grind

end Arbiter

/-! ### The ledger -/

/-- Something to note about a source. -/
inductive Note where
  /-- An event of the claim protocol, with the controller before it. -/
  | event (e : ClaimEvent) (before : Arbiter)
  | request (id : ℕ)

namespace Note

def event? : Note → Option ClaimEvent
  | .event e _ => some e
  | .request _ => none

end Note

/-- A request for the source was made after the last claim of it. -/
def Requested (id : ℕ) (notes : List Note) : Prop :=
  ∃ earlier later, notes = earlier ++ .request id :: later ∧ ∀ a, .event (.claim id) a ∉ later

/-- The board of a run, and what there was to note so far. -/
structure Ledger where
  board : Board := .new
  notes : List Note := []

/-- What there is to note of an operation that turns one board into the other. -/
def Operation.notes (op : Operation) (b b' : Board) : List Note :=
  match op with
  | .outside (.request id) => [.request id]
  | _ => (b'.arbiter.events.drop b.arbiter.events.length).map fun e => .event e b.arbiter

namespace Ledger

def events (l : Ledger) : List ClaimEvent := l.board.arbiter.events

def apply (l : Ledger) (op : Operation) : Except Fault Ledger := do
  let b ← l.board.apply op
  return { board := b, notes := l.notes ++ op.notes l.board b }

def run (l : Ledger) (ops : List Operation) : Except Fault Ledger := ops.foldlM apply l

end Ledger

section

variable {id : ℕ} {notes : List Note}

lemma requested_request : Requested id (notes ++ [.request id]) :=
  ⟨notes, [], rfl, by simp⟩

lemma not_requested_claim (a : Arbiter) : ¬ Requested id (notes ++ [.event (.claim id) a]) := by
  rintro ⟨earlier, later, hsplit, hnone⟩
  rcases List.eq_nil_or_concat later with rfl | ⟨later, n, rfl⟩
  · have hlast := (List.append_inj' hsplit rfl).2
    simp at hlast
  · have hassoc : earlier ++ .request id :: later.concat n =
        (earlier ++ .request id :: later) ++ [n] := by simp
    rw [hassoc] at hsplit
    obtain rfl := List.singleton_inj.1 (List.append_inj' hsplit rfl).2
    exact hnone a (by simp)

/-- Other notes make no difference. -/
lemma requested_snoc {n : Note} (hrequest : n ≠ .request id)
    (hclaim : ∀ a, n ≠ .event (.claim id) a) :
    Requested id (notes ++ [n]) ↔ Requested id notes := by
  constructor
  · rintro ⟨earlier, later, hsplit, hnone⟩
    rcases List.eq_nil_or_concat later with rfl | ⟨later, n', rfl⟩
    · exact absurd (List.singleton_inj.1 (List.append_inj' hsplit rfl).2) hrequest
    · have hassoc : earlier ++ .request id :: later.concat n' =
          (earlier ++ .request id :: later) ++ [n'] := by simp
      rw [hassoc] at hsplit
      exact ⟨earlier, later, (List.append_inj' hsplit rfl).1,
        fun a hmem => hnone a (by simp [hmem])⟩
  · rintro ⟨earlier, later, rfl, hnone⟩
    refine ⟨earlier, later ++ [n], by simp, fun a hmem => ?_⟩
    rcases List.mem_append.1 hmem with hmem | hmem
    · exact hnone a hmem
    · exact hclaim a (List.mem_singleton.1 hmem).symm

end

/-! ### Turns of the controller -/

/-- How an operation turns a controller, and what there is to note of that. -/
inductive Arbiter.Turns (pending : ℕ → Bool) (a : Arbiter) : List Note → Arbiter → Prop where
  /-- Priorities, enables and the threshold may change. -/
  | still {a' : Arbiter} (raised : a'.raised = a.raised) (claimed : a'.claimed = a.claimed)
      (events : a'.events = a.events) : Turns pending a [] a'
  | claim {id : ℕ} (leads : a.Leads pending Source.count id) :
      Turns pending a [.event (.claim id) a] (a.taken id)
  | complete (id : ℕ) : Turns pending a [.event (.complete id) a] (a.complete id)
  | request (id : Fin Source.count) :
      Turns pending a [.request id] (a.asked id)

namespace Board

variable {b b' : Board}

/-- A write to a register of the controller completes a source or leaves the claims alone. -/
lemma turns_of_write {a' : Arbiter} {o : ℕ} {v : Word} (h : b.arbiter.write? o v = some a') :
    ∃ id, a' = b.arbiter.complete id ∨
      a'.raised = b.arbiter.raised ∧ a'.claimed = b.arbiter.claimed ∧
        a'.events = b.arbiter.events := by
  refine ⟨v.toNat, ?_⟩
  unfold Arbiter.write? at h
  split_ifs at h <;> cases h
  · exact .inl rfl
  all_goals exact .inr ⟨rfl, rfl, rfl⟩

lemma apply_turns {op : Operation} (h : b.apply op = .ok b') :
    b.arbiter.Turns b.sourcePending (op.notes b b') b'.arbiter := by
  -- an access that leaves the controller alone
  have hstill : ∀ op : Operation, b'.arbiter = b.arbiter →
      op.notes b b' = (b'.arbiter.events.drop b.arbiter.events.length).map
        (fun e => .event e b.arbiter) →
      b.arbiter.Turns b.sourcePending (op.notes b b') b'.arbiter := by
    intro op harb hnotes
    rw [hnotes, harb, List.drop_length]
    exact .still rfl rfl rfl
  cases op with
  | load a w =>
    obtain ⟨v, hload⟩ := load_of_apply h
    rcases load_cases hload with ⟨-, -, hb⟩ | ⟨-, -, hb⟩ | ⟨link, unit, q, -, -, -, hb⟩
    · exact hstill _ (by rw [hb]) rfl
    · -- the claim register, where a source may be taken
      have harb : b'.arbiter = (b.arbiter.claim b.sourcePending).2 := by rw [hb]
      rcases b.arbiter.claim_cases b.sourcePending with ⟨-, hclaim⟩ | ⟨id, hid, -, -, hclaim⟩
      · exact hstill _ (by rw [harb, hclaim]) rfl
      · rw [hclaim] at harb
        have hnotes : (Operation.load a w).notes b b' = [.event (.claim id) b.arbiter] := by
          show (b'.arbiter.events.drop _).map _ = _
          rw [harb]
          simp [Arbiter.taken]
        rw [hnotes, harb]
        exact .claim (Arbiter.present?_eq_some_iff.1 hid)
    · exact hstill _ (by rw [hb, setQueues_arbiter]) rfl
  | store a w v =>
    cases h
    rcases store_cases b a w v with ⟨o, a', -, hw, hs⟩ | ⟨link, o, q, -, -, hs⟩ | ⟨hs, -⟩
    · -- a register of the controller, where a source may be completed
      have harb : (b.store a w v).arbiter = a' := by rw [hs]
      obtain ⟨id, hid | ⟨hraised, hclaimed, hevents⟩⟩ := turns_of_write hw
      · have hnotes : (Operation.store a w v).notes b (b.store a w v) =
            [.event (.complete id) b.arbiter] := by
          show ((b.store a w v).arbiter.events.drop _).map _ = _
          rw [harb, hid]
          simp [Arbiter.complete]
        rw [hnotes, harb, hid]
        exact .complete id
      · have hnotes : (Operation.store a w v).notes b (b.store a w v) = [] := by
          show ((b.store a w v).arbiter.events.drop _).map _ = _
          rw [harb, hevents, List.drop_length]
          rfl
        rw [hnotes, harb]
        exact .still hraised hclaimed hevents
    · exact hstill _ (by rw [hs, setQueues_arbiter]) rfl
    · exact hstill _ hs rfl
  | outside o =>
    cases h
    cases o with
    | send link unit => exact hstill (.outside (.send link unit)) (setQueues_arbiter ..) rfl
    | take link n => exact hstill (.outside (.take link n)) (setQueues_arbiter ..) rfl
    | rewire link wire =>
      exact hstill (.outside (.rewire link wire)) (setQueues_arbiter ..) rfl
    | request id =>
      rw [act_request]
      exact .request id

end Board

/-! ### Agreement -/

/-- The notes tell the state of the claims. -/
structure Arbiter.Recorded (a : Arbiter) (notes : List Note) : Prop where
  events : a.events = notes.filterMap Note.event?
  claimed : ∀ id, a.isClaimed id = true ↔ ClaimEvent.lastOf? id a.events = some (.claim id)
  raised : ∀ id, a.isRaised id = true ↔ Requested id notes
  alternates : ClaimEvent.Alternates a.events
  entitled : ∀ id before, Note.event (.claim id) before ∈ notes →
    before.isEnabled id = true ∧ before.threshold < before.priorityOf id

namespace Arbiter

variable {a a' : Arbiter} {pending : ℕ → Bool} {notes new : List Note} {id : ℕ}

lemma Leads.entitled (h : a.Leads pending Source.count id) :
    a.isEnabled id = true ∧ a.threshold < a.priorityOf id := by
  have hq := h.qualifies
  simp only [Arbiter.qualifies, Bool.and_eq_true, decide_eq_true_eq] at hq
  exact ⟨hq.1.1.1, hq.1.2⟩

lemma Recorded.claim (h : a.Recorded notes) (hlead : a.Leads pending Source.count id) :
    (a.taken id).Recorded (notes ++ [.event (.claim id) a]) where
  events := by
    rw [List.filterMap_append, ← h.events]
    rfl
  claimed j := by
    have hevents : (a.taken id).events = a.events ++ [.claim id] := rfl
    rw [isClaimed_taken hlead.lt, hevents, ClaimEvent.lastOf?_snoc, ClaimEvent.source]
    by_cases hj : id = j
    · subst hj
      simp
    · rw [if_neg hj, decide_eq_false (Ne.symm hj), Bool.false_or]
      exact h.claimed j
  raised j := by
    rw [isRaised_taken]
    by_cases hj : j = id
    · subst hj
      simp [not_requested_claim]
    · have hother : ∀ before, Note.event (.claim id) a ≠ .event (.claim j) before := by
        intro before heq
        cases heq
        exact hj rfl
      rw [requested_snoc (by simp) hother, decide_eq_false hj, Bool.not_false, Bool.true_and]
      exact h.raised j
  alternates := by
    refine h.alternates.snoc fun j hj => ?_
    cases hj
    rw [ne_eq, ← h.claimed, hlead.not_claimed]
    exact Bool.false_ne_true
  entitled j before hmem := by
    rcases List.mem_append.1 hmem with hmem | hmem
    · exact h.entitled j before hmem
    · cases List.mem_singleton.1 hmem
      exact hlead.entitled

lemma Recorded.complete (h : a.Recorded notes) (id : ℕ) :
    (a.complete id).Recorded (notes ++ [.event (.complete id) a]) where
  events := by
    rw [List.filterMap_append, ← h.events]
    rfl
  claimed j := by
    have hevents : (a.complete id).events = a.events ++ [.complete id] := rfl
    rw [isClaimed_complete, hevents, ClaimEvent.lastOf?_snoc, ClaimEvent.source]
    by_cases hj : id = j
    · subst hj
      simp
    · rw [if_neg hj, decide_eq_false (Ne.symm hj), Bool.not_false, Bool.true_and]
      exact h.claimed j
  raised j := by
    rw [requested_snoc (by simp) (by simp)]
    exact h.raised j
  alternates := h.alternates.snoc fun j hj => by cases hj
  entitled j before hmem := by
    rcases List.mem_append.1 hmem with hmem | hmem
    · exact h.entitled j before hmem
    · cases List.mem_singleton.1 hmem

lemma Recorded.request (h : a.Recorded notes) (id : Fin Source.count) :
    (a.asked id).Recorded (notes ++ [.request id]) where
  events := by
    rw [List.filterMap_append, ← h.events]
    exact (List.append_nil _).symm
  claimed := h.claimed
  raised j := by
    rw [isRaised_asked]
    by_cases hj : j = id
    · subst hj
      simp [requested_request]
    · have hother : Note.request id ≠ .request j := by
        intro heq
        cases heq
        exact hj rfl
      rw [requested_snoc hother (by simp), decide_eq_false hj, Bool.and_false, Bool.or_false]
      exact h.raised j
  alternates := h.alternates
  entitled j before hmem := by
    rcases List.mem_append.1 hmem with hmem | hmem
    · exact h.entitled j before hmem
    · cases List.mem_singleton.1 hmem

lemma Recorded.turns (h : a.Recorded notes) (hturn : a.Turns pending new a') :
    a'.Recorded (notes ++ new) := by
  cases hturn with
  | still raised claimed events =>
    have hclaimed : a'.isClaimed = a.isClaimed := by
      unfold isClaimed
      rw [claimed]
    have hraised : a'.isRaised = a.isRaised := by
      unfold isRaised
      rw [raised]
    rw [List.append_nil]
    exact ⟨events ▸ h.events, fun id => by rw [hclaimed, events]; exact h.claimed id,
      fun id => by rw [hraised]; exact h.raised id, events ▸ h.alternates, h.entitled⟩
  | claim hlead => exact h.claim hlead
  | complete id => exact h.complete id
  | request id => exact h.request id

/-- At reset nothing is claimed, nothing raised and nothing noted. -/
lemma recorded_new : ({} : Arbiter).Recorded [] where
  events := rfl
  claimed id := by simp [isClaimed, ClaimEvent.lastOf?]
  raised id := by simp [isRaised, Requested]
  alternates id earlier between later h := by simp at h
  entitled id before h := by cases h

end Arbiter

/-! ### Runs -/

namespace Ledger

variable {l l' : Ledger} {ops : List Operation} {b : Board}

lemma apply_eq {op : Operation} (h : l.board.apply op = .ok b) :
    l.apply op = .ok ⟨b, l.notes ++ op.notes l.board b⟩ := by
  rw [apply, h]
  rfl

/-- A run is noted to its end, unless it faults. -/
lemma run_eq (h : l.board.run ops = .ok b) : ∃ notes, l.run ops = .ok ⟨b, notes⟩ := by
  induction ops generalizing l with
  | nil =>
    cases h
    exact ⟨l.notes, rfl⟩
  | cons op rest ih =>
    rw [Board.run, List.foldlM_cons] at h
    cases hop : l.board.apply op with
    | error f =>
      rw [hop] at h
      cases h
    | ok b₁ =>
      rw [hop] at h
      obtain ⟨notes, hrest⟩ := ih (l := ⟨b₁, l.notes ++ op.notes l.board b₁⟩) h
      refine ⟨notes, ?_⟩
      rw [run, List.foldlM_cons, apply_eq hop]
      exact hrest

lemma recorded_apply {op : Operation} (h : l.board.arbiter.Recorded l.notes)
    (hop : l.apply op = .ok l') : l'.board.arbiter.Recorded l'.notes := by
  cases hb : l.board.apply op with
  | error f =>
    rw [apply, hb] at hop
    cases hop
  | ok b =>
    rw [apply_eq hb] at hop
    cases hop
    exact h.turns (Board.apply_turns hb)

lemma recorded_run (h : run {} ops = .ok l) : l.board.arbiter.Recorded l.notes :=
  foldlM_invariant (P := fun l => l.board.arbiter.Recorded l.notes)
    (fun _ _ _ h hop => recorded_apply h hop) Arbiter.recorded_new h

end Ledger

/-- The events of a run from reset tell which sources are claimed, and with the requests among them
which are pending. Each claim is completed before the next one of its source, and it is given out
to a source that is enabled and above the threshold at that moment. -/
theorem claims_told_by_ledger {ops : List Operation} {b : Board} (h : Board.new.run ops = .ok b) :
    ∃ notes, Ledger.run {} ops = .ok ⟨b, notes⟩ ∧
      b.arbiter.events = notes.filterMap Note.event? ∧
      (∀ id, b.arbiter.isClaimed id = true ↔
        ClaimEvent.lastOf? id b.arbiter.events = some (.claim id)) ∧
      ClaimEvent.Alternates b.arbiter.events ∧
      (∀ id, (∀ link : Link, link.source ≠ id) →
        (b.sourcePending id = true ↔ Requested id notes) ∧
        (b.qualifies id = true ↔ b.arbiter.isEnabled id = true ∧
          b.arbiter.threshold < b.arbiter.priorityOf id ∧
          ClaimEvent.lastOf? id b.arbiter.events ≠ some (.claim id) ∧ Requested id notes)) ∧
      ∀ id before, Note.event (.claim id) before ∈ notes →
        before.isEnabled id = true ∧ before.threshold < before.priorityOf id := by
  obtain ⟨notes, hrun⟩ := Ledger.run_eq (l := {}) h
  have hrec := Ledger.recorded_run hrun
  refine ⟨notes, hrun, hrec.events, hrec.claimed, hrec.alternates, fun id hid => ?_,
    hrec.entitled⟩
  have hpending : b.sourcePending id = true ↔ Requested id notes := by
    have heq : b.sourcePending id = (b.arbiter.isRaised id || b.signals id) := rfl
    rw [heq, Board.signals_of_ne hid, Bool.or_false]
    exact hrec.raised id
  refine ⟨hpending, ?_⟩
  rw [ne_eq, ← hrec.claimed id, ← hpending, Board.qualifies, Arbiter.qualifies]
  simp only [Bool.and_eq_true, Bool.not_eq_true', Bool.not_eq_true, decide_eq_true_eq]
  tauto

/-- Source 40 is raised again while it is claimed, and then completed. -/
def raisedWhileClaimed : List Operation :=
  [.store (MemoryMap.system + SystemRegister.priority + 4 * 40) .word 5#32,
    .store (MemoryMap.system + SystemRegister.enable + 4) .word 0x100#32,
    .outside (.request ⟨40, by decide⟩),
    .load claimAddress .word,
    .outside (.request ⟨40, by decide⟩),
    .outside (.send .uart 7#32),
    .load claimAddress .word,
    .store claimAddress .word 40#32]

theorem claims_told_by_ledger_raisedWhileClaimed : ∃ b notes,
    Board.new.run raisedWhileClaimed = .ok b ∧
      Ledger.run {} raisedWhileClaimed = .ok ⟨b, notes⟩ ∧
      notes.filterMap Note.event? = [.claim 40, .complete 40] ∧
      b.arbiter.isClaimed 40 = false ∧ Requested 40 notes ∧ b.qualifies 40 = true := by
  have hsource : ∀ link : Link, link.source ≠ 40 := by intro link; cases link <;> decide
  have hview : (Board.new.run raisedWhileClaimed).toOption.map
      (fun b => (b.arbiter.events, b.arbiter.isClaimed 40, b.qualifies 40)) =
        some ([.claim 40, .complete 40], false, true) := by decide +kernel
  cases hrun : Board.new.run raisedWhileClaimed with
  | error f =>
    rw [hrun] at hview
    cases hview
  | ok b =>
    rw [hrun] at hview
    obtain ⟨hevents, hclaimed, hq⟩ : b.arbiter.events = [.claim 40, .complete 40] ∧
        b.arbiter.isClaimed 40 = false ∧ b.qualifies 40 = true := by
      simpa [Except.toOption] using hview
    obtain ⟨notes, hledger, htold, -, -, hid, -⟩ := claims_told_by_ledger hrun
    exact ⟨b, notes, rfl, hledger, htold.symm.trans hevents, hclaimed,
      ((hid 40 hsource).2.1 hq).2.2.2, hq⟩

end BoardSupport
