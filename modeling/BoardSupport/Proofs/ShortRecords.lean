import BoardSupport.Proofs.LogQueue

/-!
Ordinary logging: records that are short for the ring, one after the other.

A log call drains a third of the slots. A record that needs no more than that leaves with the call
that wrote it, so the next one finds the ring empty, and nothing is ever lost.
-/

namespace BoardSupport.Log

/-! ### Short texts -/

section

variable {text chunk : List UInt8}

lemma length_pieces_le {m : ℕ} (h : text.length ≤ slotLength * m) : (pieces text).length ≤ m := by
  rw [pieces, List.length_map, List.length_range]
  simp only [slotLength] at h ⊢
  omega

lemma length_le_of_mem_pieces (h : chunk ∈ pieces text) : chunk.length ≤ slotLength := by
  obtain ⟨i, -, rfl⟩ := List.mem_map.1 h
  rw [List.length_take]
  exact Nat.min_le_left _ _

lemma flatten_flatMap_pieces (texts : List (List UInt8)) :
    (texts.flatMap pieces).flatten = texts.flatten := by
  induction texts with
  | nil => rfl
  | cons text rest ih =>
    rw [List.flatMap_cons, List.flatten_append, flatten_pieces, ih, List.flatten_cons]

end

namespace Backlog

variable {N : ℕ} {q : Backlog} {text : List UInt8}

/-- A short record goes through at once where nothing waits. -/
lemma serve_of_short (hwaiting : q.waiting = []) (hlossy : q.lossy = false)
    (hshort : (pieces text).length ≤ N / 3) :
    q.serve N (.enter text) =
      { q with sunk := q.sunk ++ pieces text, taken := q.taken + (pieces text).length } := by
  have hfitting : q.fitting N text = pieces text := by
    rw [fitting, hwaiting, List.take_of_length_le]
    exact hshort.trans (Nat.div_le_self N 3)
  simp [serve, enter, release, hfitting, hwaiting, hlossy, List.take_of_length_le hshort,
    List.drop_eq_nil_of_le hshort]

lemma serve_flush_of_empty (hwaiting : q.waiting = []) (hlossy : q.lossy = false) :
    q.serve N .flush = q := by
  obtain ⟨waiting, lossy, sunk, taken⟩ := q
  subst hwaiting hlossy
  simp [serve, release]

end Backlog

def Demand.text? : Demand → Option (List UInt8)
  | .enter text => some text
  | .flush => none

/-- Records that are all short go through one after the other. -/
lemma Backlog.serveAll_of_short {N : ℕ} {q : Backlog} (demands : List Demand)
    (hwaiting : q.waiting = []) (hlossy : q.lossy = false)
    (hshort : ∀ text ∈ demands.filterMap Demand.text?, text.length ≤ slotLength * (N / 3)) :
    q.serveAll N demands =
      { q with
        sunk := q.sunk ++ (demands.filterMap Demand.text?).flatMap pieces
        taken := q.taken + ((demands.filterMap Demand.text?).flatMap pieces).length } := by
  induction demands generalizing q with
  | nil => simp [serveAll]
  | cons demand rest ih =>
    cases demand with
    | enter text =>
      -- the record is drained whole before the next call is made
      have hcons : (Demand.enter text :: rest).filterMap Demand.text? =
          text :: rest.filterMap Demand.text? := rfl
      rw [hcons, List.forall_mem_cons] at hshort
      rw [hcons, serveAll, List.foldl_cons,
        serve_of_short hwaiting hlossy (length_pieces_le hshort.1)]
      refine (ih (q := { q with
        sunk := q.sunk ++ pieces text, taken := q.taken + (pieces text).length }) hwaiting hlossy
        hshort.2).trans ?_
      simp [Nat.add_assoc]
    | flush =>
      have hcons : (Demand.flush :: rest).filterMap Demand.text? =
          rest.filterMap Demand.text? := rfl
      rw [hcons] at hshort ⊢
      rw [serveAll, List.foldl_cons, serve_flush_of_empty hwaiting hlossy]
      exact ih hwaiting hlossy hshort

/-- The texts of the records that are let through. -/
def letThrough (filter : Filter) (calls : List Call) : List (List UInt8) :=
  (calls.filterMap (Call.demand? filter)).filterMap Demand.text?

/-- No position is in use, no slot is taken and no loss is to be told. -/
structure Ring.Idle (N : ℕ) (r : Ring) : Prop where
  head : r.head = r.tail
  slots : r.slots = List.replicate N .empty
  lost : r.lost = 0

lemma Ring.Stands.idle {r : Ring} {N : ℕ} {l : List (Option (List UInt8))} {d : Bool}
    (h : r.Stands N l.length l 0 d) : r.Idle N := by
  refine ⟨h.holds.head.trans h.holds.tail.symm, List.eq_replicate_iff.2 ⟨h.size, ?_⟩, h.lost⟩
  intro slot hslot
  obtain ⟨i, hi, rfl⟩ := List.getElem_of_mem hslot
  have hempty := h.holds.free i hi fun p hp hp' => absurd hp (by omega)
  rw [slotAt, List.getElem?_eq_getElem hi] at hempty
  exact hempty

namespace Desk

/-- **Short records come out at once.** Where every record that is let through needs no more than a
third of the slots, the ring is empty after each call. The sink has then received the pieces of the
records so far and nothing else, so no notice either. -/
theorem performAll_prompt (N : ℕ) (filter : Filter) (calls : List Call)
    (hshort : ∀ text ∈ letThrough filter calls, text.length ≤ slotLength * (N / 3))
    (hbound : ((letThrough filter calls).flatMap pieces).length < 2 ^ 64) (k : ℕ) :
    ∃ s, performAll filter (calls.take k) ⟨.new N, []⟩ = .ok () s ∧ s.ring.Idle N ∧
      s.ring.head.toNat = s.sunk.length ∧
      s.sunk = (letThrough filter (calls.take k)).flatMap pieces ∧
      s.sunk.flatten = (letThrough filter (calls.take k)).flatten ∧
      ∀ chunk ∈ s.sunk, chunk.length ≤ slotLength := by
  have hfirst : letThrough filter (calls.take k) <+: letThrough filter calls :=
    ((List.take_prefix k calls).filterMap _).filterMap _
  have hless : ((letThrough filter (calls.take k)).flatMap pieces).length ≤
      ((letThrough filter calls).flatMap pieces).length := by
    obtain ⟨more, hmore⟩ := hfirst
    rw [← hmore, List.flatMap_append, List.length_append]
    exact Nat.le_add_right _ _
  have hserved := Backlog.serveAll_of_short (N := N) (q := {})
    ((calls.take k).filterMap (Call.demand? filter)) rfl rfl
    fun text htext => hshort text (hfirst.subset htext)
  obtain ⟨_, s, hrun, hagrees⟩ := ((agrees_new N).performAll (calls.take k)
    (by rw [hserved]; exact (Nat.zero_add _).trans_lt (hless.trans_lt hbound))).returns
  rw [hserved] at hagrees
  obtain ⟨-, hsunk, done, lost, htaken, hlost, hring⟩ := hagrees
  have hpieces : s.sunk = (letThrough filter (calls.take k)).flatMap pieces := hsunk
  obtain rfl : lost = 0 := by simpa using hlost
  rw [List.append_nil] at htaken hring
  refine ⟨s, hrun, Ring.Stands.idle (l := done.map some) (by simpa using hring), ?_, hpieces, ?_,
    ?_⟩
  · rw [hring.holds.toNat_head, List.length_map, ← htaken, hpieces]
    exact Nat.zero_add _
  · rw [hpieces, flatten_flatMap_pieces]
  · intro chunk hchunk
    rw [hpieces] at hchunk
    obtain ⟨text, -, hmem⟩ := List.mem_flatMap.1 hchunk
    exact length_le_of_mem_pieces hmem

/-- A ring of six slots drains two for each call: a record that fills both to the last byte, one
that is not let through, and one more. -/
def shortRecords : List Call :=
  [.log .error none none (List.replicate 191 "x") {}, .log .info none none ["unheard"] {}, .flush,
    .log .warn (some "core::boot") (some 7) ["ready"] { hart := 1, ticks := 12 }]

theorem performAll_prompt_shortRecords :
    (letThrough (some .warn) shortRecords).map List.length = [240, 50] ∧
      ∀ k, ∃ s, performAll (some .warn) (shortRecords.take k) ⟨.new 6, []⟩ = .ok () s ∧
        s.ring.Idle 6 ∧
        s.sunk.flatten = (letThrough (some .warn) (shortRecords.take k)).flatten := by
  have hlengths : (letThrough (some .warn) shortRecords).map List.length = [240, 50] := by
    decide +kernel
  have hcount : ((letThrough (some .warn) shortRecords).flatMap pieces).length = 3 := by
    decide +kernel
  refine ⟨hlengths, fun k => ?_⟩
  obtain ⟨s, hrun, hidle, -, -, hflatten, -⟩ := performAll_prompt 6 (some .warn) shortRecords
    (fun text htext => by
      have hlength := List.mem_map_of_mem (f := List.length) htext
      rw [hlengths] at hlength
      simp only [List.mem_cons, List.not_mem_nil, or_false] at hlength
      simp only [slotLength]
      omega)
    (by rw [hcount]; decide) k
  exact ⟨s, hrun, hidle, hflatten⟩

end Desk

end BoardSupport.Log
