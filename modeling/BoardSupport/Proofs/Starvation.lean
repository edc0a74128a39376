import BoardSupport.Proofs.Service

/-!
Sources without a handler.

A source that has no handler is completed all the same. The claim takes back a request for it, but
nothing takes back the condition of a channel: while the channel signals, its source is presented
again right after its completion. The sources after it on the agenda are never served, and the
policy does not return.
-/

namespace BoardSupport.Station

variable {η τ : Type} {log : Log.Record → Proc (Station η τ) Unit} {patience id : ℕ}
  {table : SourceTable η} {serve : η → Word → Proc (Station η τ) Unit} {s : Station η τ}
  {first rest : List ℕ}

/-- The agenda is served up to the first source that is stuck, and then only that one. -/
lemma rounds_hang (hlog : ∀ r, Aside (log r)) (hcalm : s.schedule = [])
    (ht : Tended table serve s.board) (hagenda : s.board.agenda = first ++ id :: rest)
    (hfree : ∀ j ∈ first, ¬ Stuck table s.board j) (hstuck : Stuck table s.board id)
    (claims n : ℕ) :
    ∃ s', Platform.rounds
        (SourceTable.round (platform log patience) (.fixed table) (marked serve)) n claims s =
        .error .hang s' ∧
      Left (((first ++ List.replicate n id).take n).flatMap fun j =>
        service table.get? (BitVec.ofNat 32 j)) s s' := by
  induction n generalizing s first claims with
  | zero => exact ⟨s, rfl, (moves_refl hcalm).left⟩
  | succ n ih =>
    have hlead : s.board.present? = some (first.headD id) := by
      rw [Board.present?_eq_head?, hagenda]
      cases first <;> rfl
    have hmem : first.headD id ∈ s.board.waiting := by
      rw [← s.board.agenda_perm.mem_iff, hagenda]
      cases first <;> simp
    obtain ⟨s₁, hround, h₁⟩ := round_of_present hlog hcalm hlead (ht _ hmem)
    have ht₁ := h₁.tended hlead ht
    have hstuck₁ := h₁.stuck_iff.2 hstuck
    cases first with
    | nil =>
      -- the source is back on the agenda, which is what it was
      have hagenda₁ := (h₁.agenda_of_stuck hlead hstuck).trans hagenda
      obtain ⟨s', hrun, hleft⟩ := ih h₁.calm ht₁ hagenda₁ (by simp) hstuck₁ (claims + 1)
      refine ⟨s', (Platform.rounds_of_inl hround n).trans hrun, ?_⟩
      rw [List.nil_append, List.replicate_succ, List.take_succ_cons, List.flatMap_cons]
      exact h₁.left.trans hleft
    | cons j first =>
      -- a source that can be served leaves the agenda
      have hagenda₁ := h₁.agenda_of_not_stuck hagenda (hfree j List.mem_cons_self)
      have hfree₁ : ∀ i ∈ first, ¬ Stuck table s₁.board i := fun i hi hstuck =>
        hfree i (List.mem_cons_of_mem _ hi) (h₁.stuck_iff.1 hstuck)
      obtain ⟨s', hrun, hleft⟩ := ih h₁.calm ht₁ hagenda₁ hfree₁ hstuck₁ (claims + 1)
      refine ⟨s', (Platform.rounds_of_inl hround n).trans hrun, ?_⟩
      have htake : (first ++ List.replicate (n + 1) id).take n =
          (first ++ List.replicate n id).take n := by
        rw [List.take_append, List.take_append, List.take_replicate, List.take_replicate,
          Nat.min_eq_left (by omega), Nat.min_eq_left (by omega)]
      rw [List.cons_append, List.take_succ_cons, List.flatMap_cons, htake]
      exact h₁.left.trans hleft

variable (patience) in
lemma process_of_stuck (hlog : ∀ r, Aside (log r)) (hcalm : s.schedule = [])
    (ht : Tended table serve s.board) (hagenda : s.board.agenda = first ++ id :: rest)
    (hfree : ∀ j ∈ first, ¬ Stuck table s.board j) (hstuck : Stuck table s.board id) :
    ∃ s', SourceTable.process (platform log patience) (.fixed table) (marked serve) s =
        .error .hang s' ∧
      Left (((first ++ List.replicate (patience + 1) id).take (patience + 1)).flatMap fun j =>
        service table.get? (BitVec.ofNat 32 j)) s s' :=
  rounds_hang hlog hcalm ht hagenda hfree hstuck 0 (patience + 1)

/-- **Sources without a handler.** Let the handlers settle their sources. If no source that waits
is stuck, then the policy serves the whole agenda in order and returns, and every source without a
handler was claimed and completed among the others. The first source on the agenda that is stuck
keeps the policy from returning: after the sources before it, it is claimed and completed in every
round, and no other source is claimed any more. -/
theorem process_unhandled (log : Log.Record → Proc (Station η τ) Unit)
    (hlog : ∀ r, Aside (log r)) (patience : ℕ) (table : SourceTable η)
    (serve : η → Word → Proc (Station η τ) Unit) (s : Station η τ) (hcalm : s.schedule = [])
    (ht : Tended table serve s.board) :
    ((∀ id ∈ s.board.waiting, ¬ Stuck table s.board id) → s.board.waiting.length ≤ patience →
      ∃ t s', SourceTable.process (platform log patience) (.fixed table) (marked serve) s =
          .ok s.board.waiting.length s' ∧
        s'.trace = s.trace ++ t ∧
        marks t = s.board.agenda.flatMap (fun id => service table.get? (BitVec.ofNat 32 id)) ∧
        s'.board.interruptAsserted = false) ∧
    ∀ first id rest, s.board.agenda = first ++ id :: rest →
      (∀ j ∈ first, ¬ Stuck table s.board j) → Stuck table s.board id →
      ∃ t s', SourceTable.process (platform log patience) (.fixed table) (marked serve) s =
          .error .hang s' ∧
        s'.trace = s.trace ++ t ∧
        marks t = ((first ++ List.replicate (patience + 1) id).take (patience + 1)).flatMap
          (fun j => service table.get? (BitVec.ofNat 32 j)) := by
  refine ⟨fun hfree hpatience => ?_, fun first id rest hagenda hfree hstuck => ?_⟩
  · obtain ⟨s', hrun, hquiet, ⟨t, htrace, hm⟩, -⟩ :=
      process_of_not_stuck hlog hcalm ht hfree hpatience
    exact ⟨t, s', hrun, htrace, hm, hquiet⟩
  · obtain ⟨s', hrun, ⟨t, htrace, hm⟩, -⟩ :=
      process_of_stuck patience hlog hcalm ht hagenda hfree hstuck
    exact ⟨t, s', hrun, htrace, hm⟩

/-- Two pins have a handler, which does nothing. -/
def pinTable : SourceTable Bool := SourceTable.empty.registerAll [(8#32, true), (9#32, false)]

def servePins (_ : Bool) (_ : Word) : Proc (Station Bool Unit) Unit := pure ()

lemma tended_pinTable (b : Board) : Tended pinTable servePins b := by
  intro id _ h hget
  refine settles_aside (Proc.keeps_pure ()) (fun link hl => ?_) b
  subst hl
  have hnone : pinTable.get? (BitVec.ofNat 32 link.source) = none := by cases link <;> decide
  rw [hnone] at hget
  cases hget

/-- Both pins ask for service, and the first channel comes between them in priority. -/
def contended (uart : Queues) (raised : BitVec 64) : Station Bool Unit where
  board :=
    { uart
      arbiter :=
        { priority := ((Vector.replicate _ 1#32).setIfInBounds 0 5#32).setIfInBounds 9 7#32
          enable := #v[0x301#32, 0#32]
          raised } }
  buffer := .new .byte 0
  rest := ()

/-- The source of the channel is requested. -/
def requestWaiting : Station Bool Unit := contended {} 0x301#64

/-- The channel has a unit and signals it. -/
def unitWaiting : Station Bool Unit :=
  contended { rx := [65#32], enable := 2#32, rxThreshold := 1#32 } 0x300#64

theorem process_unhandled_pins :
    (∃ t s', SourceTable.process (platform (fun _ => pure ()) 3) (.fixed pinTable)
        (marked servePins) requestWaiting = .ok 3 s' ∧
      s'.trace = t ∧
      marks t = [.claim 9#32, .enter false 9#32, .leave false 9#32, .complete 9#32,
        .claim 0#32, .complete 0#32,
        .claim 8#32, .enter true 8#32, .leave true 8#32, .complete 8#32] ∧
      s'.board.interruptAsserted = false) ∧
    ∃ t s', SourceTable.process (platform (fun _ => pure ()) 3) (.fixed pinTable)
        (marked servePins) unitWaiting = .error .hang s' ∧
      s'.trace = t ∧
      marks t = [.claim 9#32, .enter false 9#32, .leave false 9#32, .complete 9#32,
        .claim 0#32, .complete 0#32, .claim 0#32, .complete 0#32, .claim 0#32, .complete 0#32] := by
  constructor
  · have hwaiting : requestWaiting.board.waiting = [0, 8, 9] := by decide +kernel
    have hagenda : requestWaiting.board.agenda = [9, 0, 8] := by decide +kernel
    have hfree : ∀ id ∈ requestWaiting.board.waiting,
        ¬ Stuck pinTable requestWaiting.board id := by
      rw [hwaiting]
      decide +kernel
    have hrun := (process_unhandled (fun _ => pure ()) (fun _ => Proc.keeps_pure ()) 3 pinTable
      servePins requestWaiting rfl (tended_pinTable _)).1 hfree (by rw [hwaiting]; decide)
    rw [hwaiting, hagenda] at hrun
    exact hrun
  · exact (process_unhandled (fun _ => pure ()) (fun _ => Proc.keeps_pure ()) 3 pinTable
      servePins unitWaiting rfl (tended_pinTable _)).2 [9] 0 [8] (by decide +kernel)
      (by decide +kernel) (by decide +kernel)

/-- However long one waits, the policy does not return while the channel without a handler
signals. -/
theorem process_unitWaiting_not_returns :
    unitWaiting.board.waiting = [0, 8, 9] ∧ pinTable.get? 0#32 = none ∧
      Tended pinTable servePins unitWaiting.board ∧
      ¬ ∃ patience n s', SourceTable.process (platform (fun _ => pure ()) patience)
        (.fixed pinTable) (marked servePins) unitWaiting = .ok n s' := by
  refine ⟨by decide +kernel, by decide, tended_pinTable _, ?_⟩
  rintro ⟨patience, n, s', hreturns⟩
  have hagenda : unitWaiting.board.agenda = [9] ++ 0 :: [8] := by decide +kernel
  have hlog : ∀ _ : Log.Record, Aside (pure () : Proc (Station Bool Unit) Unit) := fun _ =>
    Proc.keeps_pure ()
  obtain ⟨s'', hhangs, -⟩ := process_of_stuck patience hlog rfl (tended_pinTable _) hagenda
    (by decide +kernel) (by decide +kernel)
  rw [hhangs] at hreturns
  cases hreturns

end BoardSupport.Station
