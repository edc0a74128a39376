import BoardSupport.Proofs.Chronicle

/-!
The logger called again while it is at work.

A record may be logged after any piece of another record and while the sink has a chunk, to any
depth. The ring stays in order at every such point, and the sink gets the text of each record in
the order of reservation, as far as there was room for it.
-/

namespace BoardSupport.Log

open Chronicle

variable {τ : Type} {N : ℕ}

/-! ### What a call does -/

/-- With no record lost, the drain begins right away. -/
lemma drains_opened {s : Chronicle τ} (hlost : s.ring.lost = 0) :
    Drains N (Noting.hold s) (Noting.opened s) := by
  rw [Noting.opened_eq_hold hlost]
  exact refl_of (Drains N) _

/-- With records lost, the notice is the first thing of the drain. -/
lemma drains_notice {s s' : Chronicle τ} (hlost : 0 < s.ring.lost)
    (h : Reaches N ((Noting.opened s).hand (Text.utf8 lostNotice)).mark s') :
    Drains N (Noting.hold s) s' := by
  have hnotice : Reaches N (Noting.hold s) ((Noting.opened s).hand (Text.utf8 lostNotice)) :=
    reaches_notice (s := Noting.hold s) hlost
  exact ((hnotice.trans (reaches_mark _)).trans h).drains

/-- The histories of a ring, as long as its size is a machine word. -/
def Chronicle.stretches (τ : Type) (hN : N < 2 ^ 64) : Stretches (Chronicle τ) where
  Reaches := Reaches N
  Drains := Drains N
  Opened s s' := Drains N (Noting.hold s) s'
  Midway := Midway N
  reaches_refl := reaches_refl
  reaches_trans := Reaches.trans
  reaches_draining h := h.draining
  reaches_mark := reaches_mark
  reaches_current i s := reaches_with s i s.rest
  reaches_rest a s := reaches_with s s.current a
  drains_refl := refl_of (Drains N)
  drains_trans := trans_of (Drains N)
  drains_slot := drains_slot
  opened_quiet _ := drains_opened
  opened_notice _ := drains_notice
  opened_drain := trans_of (Drains N)
  opened_release := reaches_drained
  midway_enter s _ := midway_enter s
  midway_reaches := Midway.reaches
  midway_write bytes h := h.write hN bytes
  midway_publish := Midway.publish

/-! ### What a session leaves -/

/-- The slots in use, from the tail to the head. -/
def Ring.waiting (r : Ring) : List Slot :=
  (List.range r.used).map fun k => r.slotAt (r.index (r.tail + BitVec.ofNat 64 k))

/-- With no record in progress the slots in use are ready. -/
lemma Ring.Holds.waiting_eq {r : Ring} {t : ℕ} {d : List (List UInt8)}
    (h : r.Holds t (d.map some)) : r.waiting = (d.drop t).map .ready := by
  have hle := h.le
  have hbound := h.bound
  have hused := h.used_eq
  rw [List.length_map] at hle hbound hused
  refine List.ext_getElem? fun k => ?_
  rcases Nat.lt_or_ge k (d.length - t) with hk | hk
  · -- the slot of a position between tail and head
    have hindex : r.index (r.tail + BitVec.ofNat 64 k) = (t + k) % r.size := by
      rw [Ring.index, BitVec.toNat_add, h.toNat_tail, BitVec.toNat_ofNat]
      congr 1
      omega
    have hchunk : (d.map some)[t + k]? = some (some d[t + k]) := by simp
    rw [waiting, List.getElem?_map, List.getElem?_range (by omega), Option.map_some, hindex,
      h.slot _ _ (by omega) hchunk, List.getElem?_map, List.getElem?_drop,
      List.getElem?_eq_getElem (by omega)]
    rfl
  · rw [List.getElem?_eq_none (by simp [waiting]; omega),
      List.getElem?_eq_none (by simp; omega)]

/-- Nothing is corrupted, lost without notice, doubled or put in another order. -/
structure Faithful (N : ℕ) (s : Chronicle τ) : Prop where
  /-- The ring is in order, now and at every point at which something could break in. -/
  sound : ∀ r ∈ s.ring :: s.points, r.Sound N
  notices : ∀ n ∈ s.notices, n = Text.utf8 lostNotice
  head : s.ring.head.toNat = s.owners.length
  owned : ∀ i ∈ s.owners, i < s.texts.length
  /-- What the sink got and what still waits is one chunk for each position reserved, in order,
  and for each record its text. -/
  chunks : ∃ left : List (List UInt8), s.ring.waiting = left.map .ready ∧
    (s.sunk ++ left).length = s.owners.length ∧
    ∀ i text, s.texts[i]? = some text → Whole (i ∈ s.lost) (own i (s.sunk ++ left) s.owners) text

lemma Chronicle.Grown.faithful {rest : τ} {t : ℕ} {d : List (List UInt8)} {os : List ℕ}
    {s : Chronicle τ} (h : Grown N none 0 [] (fresh N rest) t (d.map some) os s)
    (hidle : s.ring.draining = false) : Faithful N s := by
  have htells := h.tells
  rw [List.nil_append] at htells
  have howners : s.owners = os := h.owners
  have hsunk : s.sunk ++ d.drop t = d := by
    rw [htells.sunk_eq hidle, List.take_append_drop]
  refine ⟨fun r hr => ?_, htells.notices, ?_, htells.owners_lt, d.drop t,
    htells.holds.waiting_eq, ?_, fun i text htext => ?_⟩
  · rcases List.mem_cons.1 hr with rfl | hr
    · exact htells.sound
    · exact htells.points r hr
  · rw [htells.holds.toNat_head, htells.owners_length]
  · rw [hsunk, htells.owners_length, List.length_map]
  · -- a record is whole once all slots are published
    obtain ⟨d', text', hown, htext', hwhole⟩ :=
      h.kept i (Nat.zero_le _) (List.getElem?_eq_some_iff.1 htext).1 (by simp)
    rw [own_map] at hown
    rw [hsunk, howners, List.map_injective_iff.2 (Option.some_injective _) hown]
    rw [htext] at htext'
    cases htext'
    exact hwhole

/-- However records and drains are interrupted by further records, the logger returns, and as long
as the positions do not run out all it did is faithful. The size of a ring is a machine word. -/
theorem session_faithful (N : ℕ) (hN : N < 2 ^ 64) {x : Proc (Chronicle τ) Unit} (hx : Session x)
    (rest : τ) :
    x.Ends (fresh N rest) (fun _ s => s.owners.length < 2 ^ 64 → Faithful N s) fun _ => False := by
  refine (hx.ends (Chronicle.stretches τ hN) rfl).imp fun _ s h hbound => ?_
  obtain ⟨t, d, os, hgrown, -⟩ := Reaches.grown h hbound 0 [] (tells_fresh N rest)
  exact hgrown.faithful h.draining

/-! ### A session -/

/-- The setting in which `x` breaks in wherever something may. -/
def Setting.interrupted (x : Proc (Chronicle ℕ) Unit) : Setting (Chronicle ℕ) ℕ :=
  ⟨some .info, fun n => ⟨0, n⟩, x, fun _ => x⟩

/-- A record into which more of its kind break, to the given depth and as long as a count lasts. -/
def ticking : ℕ → Proc (Chronicle ℕ) Unit
  | 0 => pure ()
  | depth + 1 => do
    let left ← Noting.rest.read
    if left = 0 then pure ()
    else
      Noting.rest.update (· - 1)
      (Setting.interrupted (ticking depth)).call ⟨.info, none, none, [.text "tick"]⟩

lemma nesting_ticking (depth : ℕ) : Nesting (ticking depth) := by
  induction depth with
  | zero => exact .nothing
  | succ depth ih =>
    refine .depending (fun left => if left = 0 then pure () else _) fun left => ?_
    split
    · exact .nothing
    · exact .seq (.outside (· - 1)) (.call _ _ ih (fun _ => ih) (by simp))

/-- A record and a flush, both interrupted. -/
def startThenFlush : Proc (Chronicle ℕ) Unit := do
  (Setting.interrupted (ticking 2)).call ⟨.warn, some "boot", some 7, [.text "started"]⟩
  Noting.rest.update fun _ => 3
  (Setting.interrupted (ticking 2)).flush

lemma session_startThenFlush : Session startThenFlush :=
  .seq (.nesting (.call _ _ (nesting_ticking 2) (fun _ => nesting_ticking 2) (by simp)))
    (.seq (.nesting (.outside fun _ => 3)) (.flush _ fun _ => nesting_ticking 2))

theorem session_faithful_startThenFlush :
    ∃ s, startThenFlush (fresh 3 3) = .ok () s ∧ s.owners = [0, 1, 2, 4] ∧ s.lost = [3, 5, 6] ∧
      Faithful 3 s := by
  obtain ⟨_, s, hrun, h⟩ :=
    (session_faithful 3 (by decide) session_startThenFlush 3).returns
  have hnoted : (match startThenFlush (fresh 3 3) with
      | .ok _ s => (s.owners, s.lost)
      | .error _ _ => ([], [])) = ([0, 1, 2, 4], [3, 5, 6]) := by decide +kernel
  rw [hrun] at hnoted
  obtain ⟨howners, hlost⟩ := Prod.mk.inj hnoted
  exact ⟨s, hrun, howners, hlost, h (by rw [howners]; decide)⟩

end BoardSupport.Log
