import BoardSupport.Proofs.Agenda
import BoardSupport.Proofs.Calm
import BoardSupport.Proofs.Pairing

/-!
The policy while nothing goes on outside.

A round of the policy claims the first source of the agenda, runs the handler if there is one, and
completes the source. With handlers that settle their source the agenda gets shorter by it, so the
policy serves the whole agenda in order and returns. A source without a handler whose channel
signals is on the agenda again after each round.
-/

namespace BoardSupport

/-! ### Rounds -/

/-- One round of the policy after some claims. -/
def SourceTable.round {σ η : Type} (p : Platform σ) (table : Cell σ (SourceTable η))
    (serve : η → Word → Proc σ Unit) (claims : ℕ) : Proc σ (ℕ ⊕ ℕ) := do
  match ← Controller.claim p with
  | none => return .inr claims
  | some id =>
    serveClaim p table serve id
    return .inl (claims + 1)

namespace Station

variable {η τ : Type} {own : Link → Prop} {m m' : List (Mark η)} {a a' : Arbiter}
  {s s' s'' : Station η τ}

/-- What happens from one station to the other, with nothing going on outside: these marks are
left, the controller comes to be `a`, and of the channels only those of `own` may change. -/
structure Moves (own : Link → Prop) (m : List (Mark η)) (a : Arbiter) (s s' : Station η τ) :
    Prop where
  calm : s'.schedule = []
  arbiter : s'.board.arbiter = a
  others : ∀ link, ¬ own link → s'.board.queues link = s.board.queues link
  left : Left m s s'

lemma Moves.trans (h : Moves own m a s s') (h' : Moves own m' a' s' s'') :
    Moves own (m ++ m') a' s s'' :=
  ⟨h'.calm, h'.arbiter, fun link hl => (h'.others link hl).trans (h.others link hl),
    h.left.trans h'.left⟩

/-- What leaves no mark and keeps the controller as it is adds nothing but to the channels. -/
lemma Moves.still (h : Moves own m a s s') (h' : Moves own [] s'.board.arbiter s' s'') :
    Moves own m a s s'' := by
  have hboth := h.trans h'
  rwa [List.append_nil, h.arbiter] at hboth

/-- The channels of no source. -/
abbrev nowhere : Link → Prop := fun _ => False

lemma Moves.widen (h : Moves nowhere m a s s') : Moves own m a s s' :=
  ⟨h.calm, h.arbiter, fun link _ => h.others link not_false, h.left⟩

lemma moves_refl (hcalm : s.schedule = []) : Moves nowhere [] s.board.arbiter s s :=
  ⟨hcalm, rfl, fun _ _ => rfl, ⟨⟨[], by simp⟩, by simp⟩⟩

/-- The channels of the source. -/
abbrev ownedBy (id : ℕ) : Link → Prop := fun link => link.source = id

lemma Moves.signals {id : ℕ} (h : Moves nowhere m a s s') :
    s'.board.signals id = s.board.signals id :=
  Board.signals_congr fun link _ => h.others link not_false

/-- While nothing goes on outside, controller and channels stay as they are and no mark is left. -/
def Unmoved (s s' : Station η τ) : Prop :=
  s.schedule = [] → Moves nowhere [] s.board.arbiter s s'

instance : IsPreorder (Station η τ) Unmoved where
  refl _ hcalm := moves_refl hcalm
  trans _ _ _ h h' hcalm := (h hcalm).still (h' (h hcalm).calm)

lemma unmoved_of_eq (hschedule : s'.schedule = s.schedule) (hboard : s'.board = s.board)
    (htrace : s'.trace = s.trace) : Unmoved s s' := fun hcalm =>
  ⟨hschedule.trans hcalm, by rw [hboard], fun _ _ => by rw [hboard],
    ⟨⟨[], by simp [htrace]⟩, by simp [hboard]⟩⟩

/-- A procedure that gives a result and has nothing to do with controller and channels. -/
abbrev Aside {α : Type} (x : Proc (Station η τ) α) : Prop :=
  Proc.Keeps Unmoved (fun _ => False) x

lemma Moves.aside {α : Type} {x : Proc (Station η τ) α} (h : Moves own m a s s') (hx : Aside x) :
    x.Ends s' (fun _ s'' => Moves own m a s s'') fun _ => False :=
  (hx s').imp fun _ _ hun => h.still (hun h.calm).widen

/-- With the source's channel as it is on the board and nothing going on outside, the procedure
removes the condition of that channel. It changes no other channel and leaves the controller
alone. -/
def Settles (b : Board) (id : ℕ) (x : Proc (Station η τ) Unit) : Prop :=
  ∀ s, s.schedule = [] →
    (∀ link : Link, link.source = id → s.board.queues link = b.queues link) →
    x.Ends s (fun _ s' => Moves (ownedBy id) [] s.board.arbiter s s' ∧ s'.board.signals id = false)
      fun _ => False

lemma Settles.congr {b b' : Board} {id : ℕ} {x : Proc (Station η τ) Unit} (h : Settles b id x)
    (hq : ∀ link : Link, link.source = id → b'.queues link = b.queues link) : Settles b' id x :=
  fun s hcalm hs => h s hcalm fun link hl => (hs link hl).trans (hq link hl)

lemma settles_aside {x : Proc (Station η τ) Unit} (hx : Aside x) {id : ℕ}
    (hid : ∀ link : Link, link.source ≠ id) (b : Board) : Settles b id x := fun _ hcalm _ =>
  ((moves_refl hcalm).aside hx).imp fun _ _ h =>
    ⟨h.widen, Board.signals_of_ne hid⟩

/-- The marks of the source's handler, if it has one. -/
def calls (handler : Word → Option η) (id : Word) : List (Mark η) :=
  (handler id).elim [] fun h => [.enter h id, .leave h id]

/-- The marks of one claim that is served. -/
def service (handler : Word → Option η) (id : Word) : List (Mark η) :=
  .claim id :: (calls handler id ++ [.complete id])

lemma events_services (handler : Word → Option η) {ids : List ℕ}
    (h : ∀ id ∈ ids, id < Source.count) :
    events (ids.flatMap fun id => service handler (BitVec.ofNat 32 id)) =
      ids.flatMap fun id => [.claim id, .complete id] := by
  have hservice : ∀ id, events (service handler id) = [.claim id.toNat, .complete id.toNat] := by
    intro id
    unfold service calls
    cases handler id <;> rfl
  induction ids with
  | nil => rfl
  | cons id ids ih =>
    rw [List.flatMap_cons, List.flatMap_cons, events_append, hservice,
      Source.toNat_ofNat (h id List.mem_cons_self), ih fun j hj => h j (List.mem_cons_of_mem _ hj)]

/-- The source was claimed, served and completed. -/
structure Attended (handler : Word → Option η) (id : ℕ) (s s' : Station η τ) : Prop where
  calm : s'.schedule = []
  served : Board.Served id s.board s'.board
  signals : s'.board.signals id = ((handler (BitVec.ofNat 32 id)).isNone && s.board.signals id)
  left : Left (service handler (BitVec.ofNat 32 id)) s s'

/-! ### One round -/

section

variable {log : Log.Record → Proc (Station η τ) Unit} {patience claims id : ℕ}
  {table : SourceTable η} {serve : η → Word → Proc (Station η τ) Unit}

lemma ends_claim_none (hcalm : s.schedule = []) (hnone : s.board.present? = none) :
    (Controller.claim (platform log patience)).Ends s
      (fun r s' => r = none ∧ Moves nowhere [] s.board.arbiter s s') fun _ => False := by
  have hclaim : s.board.arbiter.claim s.board.sourcePending = (Source.count, s.board.arbiter) := by
    have hnone' : s.board.arbiter.present? s.board.sourcePending = none := hnone
    rw [Arbiter.claim, hnone']
  rw [Controller.claim_eq, Proc.ends_bind, ends_load, meanwhile_of_calm hcalm, Board.load_claim,
    hclaim]
  dsimp only
  rw [if_neg (by decide), Proc.ends_pure]
  exact ⟨rfl, hcalm, rfl, fun link _ => rfl, ⟨⟨_, rfl, rfl⟩, by simp⟩⟩

lemma ends_complete_calm (hlog : ∀ r, Aside (log r)) (hcalm : s.schedule = []) (i : Word) :
    (Controller.complete (platform log patience) i).Ends s
      (fun _ s' => Moves nowhere [.complete i] (s.board.arbiter.complete i.toNat) s s')
      fun _ => False := by
  rw [Controller.complete_eq, Proc.ends_bind]
  refine ((moves_refl hcalm).aside (hlog _)).imp fun _ s₁ h₁ => ?_
  rw [ends_store, meanwhile_of_calm h₁.calm, Board.store_claim, ← h₁.arbiter]
  have hstore : Moves nowhere [.complete i] (s₁.board.arbiter.complete i.toNat) s₁
      (s₁.saw { s₁.board with arbiter := s₁.board.arbiter.complete i.toNat }
        (.store claimAddress .word i)) :=
    ⟨h₁.calm, rfl, fun link _ => by simp,
      ⟨⟨_, rfl, by simp [marks, mark?]⟩, by simp [Arbiter.complete]⟩⟩
  exact h₁.trans hstore

lemma ends_marked {h : η} (hcalm : s.schedule = [])
    (hserve : Settles s.board id (serve h (BitVec.ofNat 32 id))) :
    (marked serve h (BitVec.ofNat 32 id)).Ends s
      (fun _ s' => Moves (ownedBy id) [.enter h (BitVec.ofNat 32 id), .leave h (BitVec.ofNat 32 id)]
        s.board.arbiter s s' ∧ s'.board.signals id = false) fun _ => False := by
  unfold marked
  simp only [Proc.ends_bind, Proc.ends_modify]
  refine (hserve { s with trace := s.trace ++ [.enter h (BitVec.ofNat 32 id)] } hcalm
    fun _ _ => rfl).imp ?_
  rintro _ s₁ ⟨h₁, hsilent⟩
  refine ⟨⟨h₁.calm, h₁.arbiter, h₁.others, ?_⟩, hsilent⟩
  have henter : Left [.enter h (BitVec.ofNat 32 id)] s
      { s with trace := s.trace ++ [.enter h (BitVec.ofNat 32 id)] } := ⟨⟨_, rfl, rfl⟩, by simp⟩
  have hleave : Left [.leave h (BitVec.ofNat 32 id)] s₁
      { s₁ with trace := s₁.trace ++ [.leave h (BitVec.ofNat 32 id)] } := ⟨⟨_, rfl, rfl⟩, by simp⟩
  exact henter.trans (h₁.left.trans hleave)

section

variable (hlog : ∀ r, Aside (log r))

include hlog

lemma ends_claim_some (hcalm : s.schedule = []) (hlead : s.board.present? = some id) :
    (Controller.claim (platform log patience)).Ends s
      (fun r s' => r = some (BitVec.ofNat 32 id) ∧
        Moves nowhere [.claim (BitVec.ofNat 32 id)] (s.board.arbiter.taken id) s s')
      fun _ => False := by
  have hlead' : s.board.arbiter.present? s.board.sourcePending = some id := hlead
  have hlt := (Arbiter.present?_eq_some_iff.1 hlead').lt
  have hid := Source.toNat_ofNat hlt
  have hclaim : s.board.arbiter.claim s.board.sourcePending = (id, s.board.arbiter.taken id) := by
    rw [Arbiter.claim, hlead']
    rfl
  rw [Controller.claim_eq, Proc.ends_bind, ends_load, meanwhile_of_calm hcalm, Board.load_claim,
    hclaim]
  dsimp only
  rw [Width.cut_word, hid, if_pos hlt, Proc.ends_bind]
  have hload : Moves nowhere [.claim (BitVec.ofNat 32 id)] (s.board.arbiter.taken id) s
      (s.saw { s.board with arbiter := s.board.arbiter.taken id }
        (.load claimAddress .word (BitVec.ofNat 32 id))) :=
    ⟨hcalm, rfl, fun link _ => by simp,
      ⟨⟨_, rfl, by simp [marks, mark?, hid, hlt]⟩, by simp [Arbiter.taken, hid]⟩⟩
  refine (hload.aside (hlog _)).imp fun _ s₁ h₁ => ?_
  rw [Proc.ends_pure]
  exact ⟨rfl, h₁⟩

/-- From a claim to its completion. -/
lemma ends_serveClaim_calm {s₀ : Station η τ}
    (hlead : s₀.board.present? = some id)
    (hclaim : Moves nowhere [.claim (BitVec.ofNat 32 id)] (s₀.board.arbiter.taken id) s₀ s)
    (hserve : ∀ h, table.get? (BitVec.ofNat 32 id) = some h →
      Settles s₀.board id (serve h (BitVec.ofNat 32 id))) :
    (SourceTable.serveClaim (platform log patience) (.fixed table) (marked serve)
      (BitVec.ofNat 32 id)).Ends s (fun _ s' => Attended table.get? id s₀ s') fun _ => False := by
  have hid := Source.toNat_ofNat (Arbiter.present?_eq_some_iff.1 hlead).lt
  -- whatever was done about the source, it is completed in the end
  have finish : ∀ {s₁ : Station η τ},
      Moves (ownedBy id) (.claim (BitVec.ofNat 32 id) :: calls table.get? (BitVec.ofNat 32 id))
        (s₀.board.arbiter.taken id) s₀ s₁ →
      s₁.board.signals id =
        ((table.get? (BitVec.ofNat 32 id)).isNone && s₀.board.signals id) →
      (do
        (platform log patience).trace SourceTable.path 87
          ("finished interrupt " ++ Text.decimal (BitVec.ofNat 32 id).toNat)
        Controller.complete (platform log patience) (BitVec.ofNat 32 id)).Ends s₁
        (fun _ s' => Attended table.get? id s₀ s') fun _ => False := by
    intro s₁ h₁ hsignals
    rw [Proc.ends_bind]
    refine ((moves_refl h₁.calm).aside (hlog _)).imp fun _ s₂ h₂ => ?_
    refine (ends_complete_calm hlog h₂.calm _).imp fun _ s₃ h₃ => ?_
    have hend := h₂.trans h₃
    have hall := h₁.trans hend.widen
    refine ⟨hall.calm, ⟨?_, hall.others⟩, hend.signals.trans hsignals, hall.left⟩
    rw [hall.arbiter, h₂.arbiter, h₁.arbiter, hid]
  unfold SourceTable.serveClaim
  rw [Proc.ends_bind]
  refine (hclaim.aside (hlog _)).imp fun _ s₁ h₁ => ?_
  rw [Proc.ends_bind, Cell.ends_read, Cell.fixed_get]
  split
  · next h hget =>
    have hsettles : Settles s₁.board id (serve h (BitVec.ofNat 32 id)) :=
      (hserve h hget).congr fun link _ => h₁.others link not_false
    rw [Proc.ends_bind]
    refine (ends_marked h₁.calm hsettles).imp ?_
    rintro _ s₂ ⟨h₂, hsilent⟩
    have hboth := h₁.widen.trans h₂
    rw [h₁.arbiter] at hboth
    refine finish ?_ ?_
    · rw [calls, hget]
      exact hboth
    · rw [hsilent, hget]
      rfl
  · next hget =>
    rw [Proc.ends_bind]
    refine (h₁.aside (hlog _)).imp fun _ s₂ h₂ => finish ?_ ?_
    · rw [calls, hget]
      exact h₂.widen
    · rw [h₂.signals, hget]
      rfl

lemma round_of_present (hcalm : s.schedule = []) (hlead : s.board.present? = some id)
    (hserve : ∀ h, table.get? (BitVec.ofNat 32 id) = some h →
      Settles s.board id (serve h (BitVec.ofNat 32 id))) :
    ∃ s', SourceTable.round (platform log patience) (.fixed table) (marked serve) claims s =
      .ok (.inl (claims + 1)) s' ∧ Attended table.get? id s s' := by
  have hround : (SourceTable.round (platform log patience) (.fixed table) (marked serve)
      claims).Ends s (fun r s' => r = .inl (claims + 1) ∧ Attended table.get? id s s')
      fun _ => False := by
    unfold SourceTable.round
    rw [Proc.ends_bind]
    refine (ends_claim_some hlog hcalm hlead).imp ?_
    rintro _ s₁ ⟨rfl, h₁⟩
    rw [Proc.ends_bind]
    refine (ends_serveClaim_calm hlog hlead h₁ hserve).imp fun _ s₂ h₂ => ?_
    rw [Proc.ends_pure]
    exact ⟨rfl, h₂⟩
  obtain ⟨_, s', hrun, rfl, hs'⟩ := hround.returns
  exact ⟨s', hrun, hs'⟩

end

lemma round_of_nothing (hcalm : s.schedule = []) (hnone : s.board.present? = none) :
    ∃ s', SourceTable.round (platform log patience) (.fixed table) (marked serve) claims s =
      .ok (.inr claims) s' ∧ Moves nowhere [] s.board.arbiter s s' := by
  have hround : (SourceTable.round (platform log patience) (.fixed table) (marked serve)
      claims).Ends s (fun r s' => r = .inr claims ∧ Moves nowhere [] s.board.arbiter s s')
      fun _ => False := by
    unfold SourceTable.round
    rw [Proc.ends_bind]
    refine (ends_claim_none hcalm hnone).imp ?_
    rintro _ s₁ ⟨rfl, h₁⟩
    rw [Proc.ends_pure]
    exact ⟨rfl, h₁⟩
  obtain ⟨_, s', hrun, rfl, hs'⟩ := hround.returns
  exact ⟨s', hrun, hs'⟩

/-! ### The agenda -/

/-- The sources that wait have handlers that settle them, or none. -/
def Tended (table : SourceTable η) (serve : η → Word → Proc (Station η τ) Unit) (b : Board) :
    Prop :=
  ∀ id ∈ b.waiting, ∀ h, table.get? (BitVec.ofNat 32 id) = some h →
    Settles b id (serve h (BitVec.ofNat 32 id))

/-- The source has no handler, and its channel signals. -/
def Stuck (table : SourceTable η) (b : Board) (id : ℕ) : Prop :=
  table.get? (BitVec.ofNat 32 id) = none ∧ b.signals id = true

instance {b : Board} : Decidable (Stuck table b id) := inferInstanceAs (Decidable (_ ∧ _))

lemma Attended.stuck_iff (h : Attended table.get? id s s') {j : ℕ} :
    Stuck table s'.board j ↔ Stuck table s.board j := by
  unfold Stuck
  refine and_congr_right fun hget => ?_
  by_cases hj : j = id
  · subst hj
    rw [h.signals, hget]
    rfl
  · rw [h.served.signals_of_ne hj]

lemma Attended.tended (h : Attended table.get? id s s') (hlead : s.board.present? = some id)
    (ht : Tended table serve s.board) : Tended table serve s'.board := by
  intro j hj h' hget
  obtain ⟨hlt, hq⟩ := Board.mem_waiting.1 hj
  rw [h.served.qualifies hlead hlt] at hq
  split_ifs at hq with hid
  · -- a handler settled the source, so it does not wait
    subst hid
    rw [h.signals, hget] at hq
    cases hq
  · exact (ht j (Board.mem_waiting.2 ⟨hlt, hq⟩) h' hget).congr fun link hl =>
      h.served.others link (by omega)

lemma Attended.agenda_of_not_stuck {rest : List ℕ} (h : Attended table.get? id s s')
    (hagenda : s.board.agenda = id :: rest) (hfree : ¬ Stuck table s.board id) :
    s'.board.agenda = rest := by
  refine h.served.agenda_of_silent hagenda ?_
  rw [h.signals]
  by_contra hsignals
  rw [Bool.not_eq_false, Bool.and_eq_true, Option.isNone_iff_eq_none] at hsignals
  exact hfree hsignals

lemma Attended.agenda_of_stuck (h : Attended table.get? id s s')
    (hlead : s.board.present? = some id) (hstuck : Stuck table s.board id) :
    s'.board.agenda = s.board.agenda :=
  h.served.agenda_of_signals hlead (h.stuck_iff.2 hstuck).2

/-- The whole agenda is served in order, and then nothing is presented. -/
lemma rounds_return (hlog : ∀ r, Aside (log r)) (hcalm : s.schedule = [])
    (ht : Tended table serve s.board) {ids : List ℕ} (hagenda : s.board.agenda = ids)
    (hfree : ∀ id ∈ ids, ¬ Stuck table s.board id) (claims : ℕ) {n : ℕ} (hn : ids.length < n) :
    ∃ s', Platform.rounds
        (SourceTable.round (platform log patience) (.fixed table) (marked serve)) n claims s =
        .ok (claims + ids.length) s' ∧
      s'.board.present? = none ∧
      Left (ids.flatMap fun id => service table.get? (BitVec.ofNat 32 id)) s s' := by
  obtain ⟨n, rfl⟩ : ∃ k, n = k + 1 := ⟨n - 1, by omega⟩
  -- the rest of the agenda is the agenda after the round
  induction ids generalizing s claims n with
  | nil =>
    have hnone : s.board.present? = none := by rw [Board.present?_eq_head?, hagenda]; rfl
    obtain ⟨s', hround, hs'⟩ := round_of_nothing hcalm hnone
    refine ⟨s', Platform.rounds_of_inr hround n, ?_, hs'.left⟩
    have hpending : s'.board.sourcePending = s.board.sourcePending := by
      funext j
      show (_ || s'.board.signals j) = (_ || s.board.signals j)
      rw [hs'.signals, hs'.arbiter]
    rw [Board.present?, hs'.arbiter, hpending]
    exact hnone
  | cons id ids ih =>
    have hlead : s.board.present? = some id := by rw [Board.present?_eq_head?, hagenda]; rfl
    have hmem : id ∈ s.board.waiting := by
      rw [← s.board.agenda_perm.mem_iff, hagenda]
      exact List.mem_cons_self
    obtain ⟨s₁, hround, h₁⟩ := round_of_present hlog hcalm hlead (ht id hmem)
    have hagenda₁ := h₁.agenda_of_not_stuck hagenda (hfree id List.mem_cons_self)
    have hfree₁ : ∀ j ∈ ids, ¬ Stuck table s₁.board j := fun j hj hstuck =>
      hfree j (List.mem_cons_of_mem _ hj) (h₁.stuck_iff.1 hstuck)
    obtain ⟨n, rfl⟩ : ∃ k, n = k + 1 := ⟨n - 1, by simp only [List.length_cons] at hn; omega⟩
    obtain ⟨s', hrun, hnone, hleft⟩ := ih h₁.calm (h₁.tended hlead ht) hagenda₁ hfree₁
      (claims + 1) n (by simp only [List.length_cons] at hn; omega)
    refine ⟨s', ?_, hnone, ?_⟩
    · rw [Platform.rounds_of_inl hround, hrun, List.length_cons, Nat.add_assoc,
        Nat.add_comm 1 ids.length]
    · rw [List.flatMap_cons]
      exact h₁.left.trans hleft

lemma process_of_not_stuck (hlog : ∀ r, Aside (log r)) (hcalm : s.schedule = [])
    (ht : Tended table serve s.board)
    (hfree : ∀ id ∈ s.board.waiting, ¬ Stuck table s.board id)
    (hpatience : s.board.waiting.length ≤ patience) :
    ∃ s', SourceTable.process (platform log patience) (.fixed table) (marked serve) s =
        .ok s.board.waiting.length s' ∧
      s'.board.interruptAsserted = false ∧
      Left (s.board.agenda.flatMap fun id => service table.get? (BitVec.ofNat 32 id)) s s' := by
  have hfree' : ∀ id ∈ s.board.agenda, ¬ Stuck table s.board id := fun id hid =>
    hfree id (s.board.agenda_perm.mem_iff.1 hid)
  obtain ⟨s', hrun, hnone, hleft⟩ := rounds_return hlog hcalm ht rfl hfree' 0
    (n := patience + 1) (by rw [Board.agenda_length]; omega)
  rw [Nat.zero_add, Board.agenda_length] at hrun
  exact ⟨s', hrun, by rw [Board.interruptAsserted, hnone]; rfl, hleft⟩

end

end Station

end BoardSupport
