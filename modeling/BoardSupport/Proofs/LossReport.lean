import BoardSupport.Proofs.Journal

/-!
Loss is reported, and only loss.

However calls of the logger break into each other, a drain hands over one notice of loss before
anything else if a record was cut short since the drain before began, and none otherwise. A record
is cut short only when every slot of the ring is in use.
-/

namespace BoardSupport.Log.Journal

open Chronicle

variable {τ : Type} {N : ℕ}

/-- The accounts of a log's losses, as long as the size of its ring is a machine word. -/
def stretches (τ : Type) (hN : N < 2 ^ 64) : Stretches (Journal τ) where
  Reaches := Reaches N
  Drains := Drains N
  Opened := Opened N
  Midway := Midway N
  reaches_refl := reaches_refl
  reaches_trans := Reaches.trans
  reaches_draining h := h.draining
  reaches_mark := reaches_mark
  reaches_current i s := reaches_with s i s.rest
  reaches_rest a s := reaches_with s s.current a
  drains_refl := refl_of (Drains N)
  drains_trans := trans_of (Drains N)
  drains_slot := drains_slot
  opened_quiet := opened_quiet
  opened_notice := opened_notice
  opened_drain := Opened.drain
  opened_release hidle h := h.reaches hidle
  midway_enter s _ := midway_enter s
  midway_reaches := Midway.reaches
  midway_write bytes h := h.write hN bytes
  midway_publish := Midway.publish

/-! ### What a session reports -/

/-- Each drain handed over one notice before anything else if a record was cut short since the
drain before began, and none otherwise; a record was cut short only with all slots in use. -/
structure Reported (N : ℕ) (s : Journal τ) : Prop where
  drains : ∀ d ∈ s.account.past, d.handed = d.due ++ d.freed
  stray : s.account.stray = []
  ended : s.account.drain = none
  full : ∀ c ∈ s.account.allCuts, c.reserved = c.drained + N
  /-- The records cut short are those with more text than their slots have room for. -/
  short : ∀ i text, s.texts[i]? = some text →
    ((∃ c ∈ s.account.allCuts, c.record = i) ↔ slotLength * s.owners.count i < text.length)

lemma Squares.reported {s : Journal τ} (h : Squares N s) (hidle : s.ring.draining = false)
    (hfair : Fair 0 s.toChronicle) : Reported N s := by
  refine ⟨h.past, h.stray, ?_, h.full, fun i text htext => ?_⟩
  · rw [← Option.not_isSome_iff_eq_none, h.drain, hidle]
    exact Bool.false_ne_true
  · obtain ⟨text', htext', hlost⟩ :=
      hfair i (Nat.zero_le i) (List.getElem?_eq_some_iff.1 htext).1
    obtain rfl : text' = text := Option.some.inj (htext'.symm.trans htext)
    rw [← List.mem_map, h.records]
    exact hlost

/-- **Loss is reported.** However records and drains are interrupted by further records, the logger
returns, and as long as the positions do not run out every loss was reported, and nothing else
was. -/
theorem session_reports_loss (N : ℕ) (hN : N < 2 ^ 64) {x : Proc (Journal τ) Unit} (hx : Session x)
    (rest : τ) :
    x.Ends (fresh N rest) (fun _ s => s.owners.length < 2 ^ 64 → Reported N s) fun _ => False := by
  refine (hx.ends (stretches τ hN) rfl).imp fun _ s h hbound => ?_
  have hsince := Reaches.since h hbound 0 [] (tells_fresh N rest) (squares_fresh N rest)
  exact hsince.squares.reported h.draining hsince.fair

/-! ### A session -/

/-- The setting in which nothing breaks in but `x`, while the sink has something. -/
def whileSinking (x : Proc (Journal Unit) Unit) : Setting (Journal Unit) Unit :=
  ⟨some .info, fun _ => ⟨0, 0⟩, pure (), fun _ => x⟩

def tick : Proc (Journal Unit) Unit :=
  (whileSinking (pure ())).call ⟨.info, none, none, [.text "tick"]⟩

/-- With a single slot, a record finds no room inside another record, and none while the slot is
with the sink. -/
def crowded : Proc (Journal Unit) Unit := do
  (whileSinking (pure ())).call ⟨.warn, none, none, [.text "start", .act tick]⟩
  (whileSinking tick).flush
  (whileSinking (pure ())).flush

lemma nesting_tick : Nesting tick := .call _ _ .nothing (fun _ => .nothing) (by simp)

lemma session_crowded : Session crowded := by
  refine .seq (.nesting (.call _ _ .nothing (fun _ => .nothing) fun x hx => ?_))
    (.seq (.flush _ fun _ => nesting_tick) (.flush _ fun _ => .nothing))
  obtain rfl : x = tick := by simpa using hx
  exact nesting_tick

theorem session_reports_loss_crowded :
    ∃ s, crowded (fresh 1 ()) = .ok () s ∧
      s.account.past.map (fun d => (d.cuts.map Cut.record, d.handed.length)) =
        [([1], 1), ([], 0), ([], 1), ([2], 1)] ∧
      Reported 1 s := by
  obtain ⟨_, s, hrun, h⟩ := (session_reports_loss 1 (by decide) session_crowded ()).returns
  have hnoted : (match crowded (fresh 1 ()) with
      | .ok _ s => (s.owners.length,
          s.account.past.map fun d => (d.cuts.map Cut.record, d.handed.length))
      | .error _ _ => (0, [])) = (1, [([1], 1), ([], 0), ([], 1), ([2], 1)]) := by decide +kernel
  rw [hrun] at hnoted
  obtain ⟨hreserved, hdrains⟩ := Prod.mk.inj hnoted
  exact ⟨s, hrun, hdrains, h (by rw [hreserved]; decide)⟩

end BoardSupport.Log.Journal
