import BoardSupport.Log.Logger
import BoardSupport.Proofs.Outcome

/-!
Calls of the logger that break into each other.

What breaks in after a piece of a record, or while the sink has a chunk, may be a call again
(`Nesting`). The ring is watched from a state that keeps notes of what is done to it (`Noting`), and
what is shown of a session depends on the notes that are kept. `Stretches` are the relations to show
and what has to be known of them step by step; for calls nested in any way they follow from that.
-/

namespace BoardSupport.Log

def Piece.bytes {σ : Type} : Piece σ → List UInt8
  | .text s => Text.utf8 s
  | .act _ => []

/-! ### The loops of the logger -/

namespace Logger

variable {σ : Type} {l : Logger σ} {E : Halt → Prop}

/-- The slots one after the other. -/
lemma keeps_drainSlots {R : σ → σ → Prop} [IsPreorder σ R]
    (hslot : ∀ s b, (l.ring.get s).front? = some b →
      (l.accept b).Ends s (fun _ s' => R s (l.ring.put (l.ring.get s').pop s')) E) (n : ℕ) :
    Proc.Keeps R E (l.drainSlots n) := by
  induction n with
  | zero => exact Proc.keeps_pure ()
  | succ n ih =>
    intro s
    unfold Logger.drainSlots
    rw [Proc.ends_bind, Cell.ends_read]
    cases hfront : (l.ring.get s).front? with
    | none =>
      -- a slot that is not filled ends the loop early
      exact (Proc.ends_pure _).2 (refl_of R s)
    | some b =>
      dsimp only
      rw [Proc.ends_bind]
      refine (hslot s b hfront).imp fun _ s₁ h₁ => ?_
      rw [Proc.ends_bind, Cell.ends_update]
      exact (ih _).imp fun _ s₂ h₂ => trans_of R h₁ h₂

/-- The pieces of a record one after the other. -/
lemma ends_writePieces {M : List UInt8 → Writer → σ → Prop} {pieces : List (Piece σ)}
    (hwrite : ∀ bytes text w s, M text w s →
      l.interrupt.Ends (l.ring.put (Ring.write (l.ring.get s, w) bytes).1 s)
        (fun _ s' => M (text ++ bytes) (Ring.write (l.ring.get s, w) bytes).2 s') E)
    (hact : ∀ x, .act x ∈ pieces → ∀ text w s, M text w s → x.Ends s (fun _ s' => M text w s') E)
    (text : List UInt8) {w : Writer} {s : σ} (h : M text w s) :
    (l.writePieces w pieces).Ends s
      (fun w' s' => M (text ++ pieces.flatMap Piece.bytes) w' s') E := by
  induction pieces generalizing s text w with
  | nil =>
    unfold Logger.writePieces
    rw [Proc.ends_pure, List.flatMap_nil, List.append_nil]
    exact h
  | cons p rest ih =>
    have hrest := fun x hx => hact x (List.mem_cons_of_mem _ hx)
    rw [List.flatMap_cons, ← List.append_assoc]
    cases p with
    | text t =>
      unfold Logger.writePieces Logger.write
      rw [Proc.ends_bind, Proc.ends_bind, Cell.ends_read, Proc.ends_bind, Cell.ends_write,
        Proc.ends_pure, Proc.ends_bind]
      exact (hwrite (Text.utf8 t) text w s h).imp fun _ s₁ h₁ => ih hrest _ h₁
    | act x =>
      -- an act adds no text, but it may log records of its own
      unfold Logger.writePieces
      rw [Proc.ends_bind, Piece.bytes, List.append_nil]
      exact (hact x List.mem_cons_self text w s h).imp fun _ s₁ h₁ => ih hrest _ h₁

end Logger

/-! ### A ring under watch -/

/-- A state with a log ring in it that keeps notes of what is done to the ring. -/
class Noting (σ : Type) (τ : outParam Type) where
  ring : Cell σ Ring
  /-- The record being written. -/
  current : Cell σ ℕ
  /-- Everything else. -/
  rest : Cell σ τ
  /-- The sink is handed a chunk. -/
  hand : List UInt8 → σ → σ
  /-- Something may break in here. -/
  mark : σ → σ
  /-- A record begins. -/
  enter : List UInt8 → σ → σ
  ring_put : ∀ r s, ring.get (ring.put r s) = r
  put_ring : ∀ s, ring.put (ring.get s) s = s
  current_put : ∀ i s, current.get (current.put i s) = i
  current_mark : ∀ s, current.get (mark s) = current.get s
  current_rest : ∀ a s, current.get (rest.put a s) = current.get s
  rest_mark : ∀ s, rest.get (mark s) = rest.get s
  rest_enter : ∀ text s, rest.get (enter text s) = rest.get s

namespace Noting

variable {σ τ : Type} [Noting σ τ]

/-- A drain takes hold of the sink. -/
def hold (s : σ) : σ := ring.put { ring.get s with draining := true } s

/-- Then it takes the count of lost records. -/
def opened (s : σ) : σ := ring.put (ring.get (hold s)).forgetLost (hold s)

lemma hold_lost (s : σ) : (ring.get (hold s)).lost = (ring.get s).lost := by
  rw [hold, ring_put]

/-- If no record was lost, then taking the count changes nothing. -/
lemma opened_eq_hold {s : σ} (h : (ring.get s).lost = 0) : opened s = hold s := by
  have hforget : (ring.get (hold s)).forgetLost = ring.get (hold s) := by
    unfold Ring.forgetLost
    rw [← h, ← hold_lost]
  rw [opened, hforget, put_ring]

/-- A drain lets go of the sink. -/
def release (s : σ) : σ := ring.put { ring.get s with draining := false } s

end Noting

open Noting

variable {σ τ : Type}

/-- What a call of the logger meets: what passes, what the clock says, and what breaks in. -/
structure Setting (σ τ : Type) where
  filter : Filter
  stamp : τ → Stamp
  /-- After a piece of a record. -/
  interrupt : Proc σ Unit
  /-- While the sink has the chunk. -/
  onAccept : List UInt8 → Proc σ Unit

variable [Noting σ τ]

namespace Setting

def logger (g : Setting σ τ) : Logger σ where
  ring := ring
  filter := g.filter
  stamp := do return g.stamp (← rest.read)
  accept chunk := do
    modify fun s => mark (hand chunk s)
    g.onAccept chunk
  interrupt := do
    modify mark
    g.interrupt

/-- What a record comes to: nothing if it does not pass. -/
def text (g : Setting σ τ) (e : Entry σ) (a : τ) : List UInt8 :=
  if g.filter.admits e.level then (e.pieces (g.stamp a)).flatMap Piece.bytes else []

/-- Log a record, and note that it begins and ends. -/
def call (g : Setting σ τ) (e : Entry σ) : Proc σ Unit := do
  let before ← current.read
  modify fun s => enter (g.text e (rest.get s)) (mark s)
  g.logger.log e
  modify fun s => mark (current.put before s)

def flush (g : Setting σ τ) : Proc σ Unit := do
  modify mark
  g.logger.flush
  modify mark

end Setting

/-- What may break in: calls of the logger, into which again something may break, and anything
that is not the logger's. -/
inductive Nesting : Proc σ Unit → Prop where
  | nothing : Nesting (pure ())
  | outside (f : τ → τ) : Nesting (rest.update f)
  | depending (f : τ → Proc σ Unit) (each : ∀ a, Nesting (f a)) : Nesting (do f (← rest.read))
  | seq {x y : Proc σ Unit} (first : Nesting x) (second : Nesting y) : Nesting (do x; y)
  | call (g : Setting σ τ) (e : Entry σ) (interrupt : Nesting g.interrupt)
      (onAccept : ∀ b, Nesting (g.onAccept b)) (acts : ∀ x, .act x ∈ e.message → Nesting x) :
      Nesting (g.call e)

/-- What is done from outside of any call: logging and flushing. -/
inductive Session : Proc σ Unit → Prop where
  | nesting {x : Proc σ Unit} (h : Nesting x) : Session x
  | depending (f : τ → Proc σ Unit) (each : ∀ a, Session (f a)) : Session (do f (← rest.read))
  | seq {x y : Proc σ Unit} (first : Session x) (second : Session y) : Session (do x; y)
  | flush (g : Setting σ τ) (onAccept : ∀ b, Nesting (g.onAccept b)) : Session g.flush

/-! ### What to show of a session, step by step -/

/-- Relations between an earlier and a later state of a session, and how they arise. -/
structure Stretches (σ : Type) {τ : Type} [Noting σ τ] where
  /-- Every record that began is done. -/
  Reaches : σ → σ → Prop
  /-- A drain went on. -/
  Drains : σ → σ → Prop
  /-- A drain began and has not ended. -/
  Opened : σ → σ → Prop
  /-- A record began: its text, what of it is written, and where the writer is. -/
  Midway : σ → List UInt8 → List UInt8 → Writer → σ → Prop
  reaches_refl : ∀ s, Reaches s s
  reaches_trans : ∀ {s s' s''}, Reaches s s' → Reaches s' s'' → Reaches s s''
  reaches_draining : ∀ {s s'}, Reaches s s' → (ring.get s').draining = (ring.get s).draining
  reaches_mark : ∀ s, Reaches s (mark s)
  reaches_current : ∀ i s, Reaches s (current.put i s)
  reaches_rest : ∀ a s, Reaches s (rest.put a s)
  drains_refl : ∀ s, Drains s s
  drains_trans : ∀ {s s' s''}, Drains s s' → Drains s' s'' → Drains s s''
  /-- One slot: its chunk is handed over, something may break in, and it is freed. -/
  drains_slot : ∀ {s s' b}, (ring.get s).front? = some b → Reaches (mark (hand b s)) s' →
    Drains s (ring.put (ring.get s').pop s')
  /-- No record was lost. -/
  opened_quiet : ∀ {s}, (ring.get s).draining = false → (ring.get s).lost = 0 → Opened s (opened s)
  /-- Records were lost: the notice is handed over, and something may break in. -/
  opened_notice : ∀ {s s'}, (ring.get s).draining = false → 0 < (ring.get s).lost →
    Reaches (mark (hand (Text.utf8 lostNotice) (opened s))) s' → Opened s s'
  opened_drain : ∀ {s s' s''}, Opened s s' → Drains s' s'' → Opened s s''
  opened_release : ∀ {s s'}, (ring.get s).draining = false → Opened s s' → Reaches s (release s')
  midway_enter : ∀ s total, Midway s total [] {} (enter total s)
  /-- Something breaks in, and leaves the record being written as it was. -/
  midway_reaches : ∀ {s total text w s' s''}, Midway s total text w s' → Reaches s' s'' →
    current.get s'' = current.get s' → Midway s total text w s''
  midway_write : ∀ {s total text w s'} bytes, Midway s total text w s' →
    Midway s total (text ++ bytes) (Ring.write (ring.get s', w) bytes).2
      (ring.put (Ring.write (ring.get s', w) bytes).1 s')
  midway_publish : ∀ {s total w s'}, Midway s total total w s' →
    Reaches s (ring.put ((ring.get s').publish w) s')

namespace Stretches

variable (p : Stretches σ)

/-- What breaks in: the record being written is afterwards the one it was. -/
def Follows (s s' : σ) : Prop := p.Reaches s s' ∧ current.get s' = current.get s

instance : IsPreorder σ p.Follows where
  refl s := ⟨p.reaches_refl s, rfl⟩
  trans _ _ _ h h' := ⟨p.reaches_trans h.1 h'.1, h'.2.trans h.2⟩

instance : IsPreorder σ p.Drains where
  refl := p.drains_refl
  trans _ _ _ h h' := p.drains_trans h h'

variable {p} {g : Setting σ τ} {s : σ}

section

variable (hinterrupt : Proc.Keeps p.Follows (fun _ => False) g.interrupt)
  (haccept : ∀ b, Proc.Keeps p.Follows (fun _ => False) (g.onAccept b))

include haccept in
/-- The sink is handed something, and then something may break in. -/
lemma ends_accept (b : List UInt8) :
    (g.logger.accept b).Ends s (fun _ s' => p.Reaches (mark (hand b s)) s') fun _ => False := by
  show Proc.Ends (_ >>= _) s _ _
  rw [Proc.ends_bind, Proc.ends_modify]
  exact (haccept b _).imp fun _ _ h => h.1

include haccept in
lemma keeps_drainSlots (n : ℕ) : Proc.Keeps p.Drains (fun _ => False) (g.logger.drainSlots n) :=
  Logger.keeps_drainSlots (fun _ b hfront =>
    (ends_accept haccept b).imp fun _ _ h => p.drains_slot hfront h) n

include haccept in
/-- A drain: the notice if one is due, and then the slots. -/
lemma ends_drainLocked (hidle : (ring.get s).draining = false) (n : ℕ) :
    (g.logger.drainLocked n).Ends s (fun _ s' => p.Reaches s s') fun _ => False := by
  unfold Logger.drainLocked
  rw [Proc.ends_bind, Cell.ends_update, Proc.ends_bind]
  refine Proc.Ends.imp (Q := fun _ s' => p.Opened s s') ?_ fun _ s₁ h₁ => ?_
  · unfold Logger.drain
    rw [Proc.ends_bind, Cell.ends_read, Proc.ends_bind, Cell.ends_update]
    show Proc.Ends _ (opened s) _ _
    split
    · next hlost =>
      -- the notice goes out before the slots
      have hpos : 0 < (ring.get s).lost := hold_lost s ▸ hlost
      rw [Proc.ends_bind]
      refine (ends_accept haccept _).imp fun _ s₁ h₁ => ?_
      have hnotice := p.opened_notice hidle hpos h₁
      exact (keeps_drainSlots haccept n s₁).imp fun _ s₂ h₂ => p.opened_drain hnotice h₂
    · next hlost =>
      have hzero : (ring.get s).lost = 0 := hold_lost s ▸ Nat.eq_zero_of_not_pos hlost
      have hquiet := p.opened_quiet hidle hzero
      exact (keeps_drainSlots haccept n _).imp fun _ s₂ h₂ => p.opened_drain hquiet h₂
  · rw [Cell.ends_update]
    exact p.opened_release hidle h₁

include hinterrupt in
/-- A record from its first piece to its last. -/
lemma ends_record {e : Entry σ}
    (hacts : ∀ x, .act x ∈ e.message → Proc.Keeps p.Follows (fun _ => False) x) :
    (g.logger.record e).Ends (enter ((e.pieces (g.stamp (rest.get s))).flatMap Piece.bytes) s)
      (fun _ s' => p.Reaches s s') fun _ => False := by
  unfold Logger.record
  rw [Proc.ends_bind]
  show Proc.Ends (_ >>= _) _ _ _
  rw [Proc.ends_bind, Cell.ends_read, Proc.ends_pure, Proc.ends_bind, rest_enter]
  refine Proc.Ends.imp (Logger.ends_writePieces (M := fun text w s' => p.Midway s _ text w s')
    (fun bytes text w s' h => ?_) (fun x hx _ _ s' h => ?_) [] (p.midway_enter s _))
    fun w s' h => ?_
  · show Proc.Ends (_ >>= _) _ _ _
    rw [Proc.ends_bind, Proc.ends_modify]
    have hwrite := p.midway_reaches (p.midway_write bytes h) (p.reaches_mark _) (current_mark _)
    exact (hinterrupt _).imp fun _ s₁ h₁ => p.midway_reaches hwrite h₁.1 h₁.2
  · have hx' : .act x ∈ e.message := by simpa [Entry.pieces] using hx
    exact (hacts x hx' s').imp fun _ s₁ h₁ => p.midway_reaches h h₁.1 h₁.2
  · rw [Cell.ends_update]
    exact p.midway_publish h

include hinterrupt haccept in
/-- A call keeps its own record and all that break in. -/
lemma keeps_call {e : Entry σ}
    (hacts : ∀ x, .act x ∈ e.message → Proc.Keeps p.Follows (fun _ => False) x) :
    Proc.Keeps p.Follows (fun _ => False) (g.call e) := by
  intro s
  unfold Setting.call
  rw [Proc.ends_bind, Cell.ends_read, Proc.ends_bind, Proc.ends_modify, Proc.ends_bind]
  -- the call ends with the record that was being written before
  have hleave : ∀ s', p.Reaches (mark s) s' →
      p.Follows s (mark (current.put (current.get s) s')) := fun s' h =>
    ⟨p.reaches_trans (p.reaches_trans (p.reaches_trans (p.reaches_mark s) h)
      (p.reaches_current _ s')) (p.reaches_mark _), by rw [current_mark, current_put]⟩
  simp only [Proc.ends_modify]
  refine Proc.Ends.imp (Q := fun _ s' => p.Reaches (mark s) s') ?_ fun _ s' h => hleave s' h
  have henabled : g.logger.enabled e.level = g.filter.admits e.level := rfl
  unfold Logger.log Setting.text
  rw [henabled]
  by_cases hpass : g.filter.admits e.level = true
  · rw [if_pos hpass, if_pos hpass, Proc.ends_bind, ← rest_mark]
    refine (ends_record hinterrupt hacts).imp fun _ s₁ h₁ => ?_
    rw [Proc.ends_bind, Cell.ends_read]
    have hring : g.logger.ring.get s₁ = ring.get s₁ := rfl
    rw [hring]
    cases hd : (ring.get s₁).draining with
    | true =>
      -- inside a drain: the record is left to that drain
      rw [if_pos rfl, Proc.ends_pure]
      exact h₁
    | false =>
      rw [if_neg Bool.false_ne_true]
      exact (ends_drainLocked haccept hd _).imp fun _ s₂ h₂ => p.reaches_trans h₁ h₂
  · rw [if_neg hpass, if_neg hpass, Proc.ends_pure]
    -- a record without text that is over at once
    have hpublish := p.midway_publish (p.midway_enter (mark s) [])
    have hsame : (ring.get (enter [] (mark s))).publish {} = ring.get (enter [] (mark s)) := rfl
    rwa [hsame, put_ring] at hpublish

include haccept in
lemma ends_flush (hidle : (ring.get s).draining = false) :
    g.flush.Ends s (fun _ s' => p.Reaches s s') fun _ => False := by
  have hmark := p.reaches_mark s
  have hidle' : (ring.get (mark s)).draining = false := (p.reaches_draining hmark).trans hidle
  have hring : g.logger.ring.get (mark s) = ring.get (mark s) := rfl
  unfold Setting.flush Logger.flush
  rw [Proc.ends_bind, Proc.ends_modify, Proc.ends_bind, Proc.ends_bind, Cell.ends_read, hring,
    hidle', if_neg Bool.false_ne_true]
  refine (ends_drainLocked haccept hidle' _).imp fun _ s₁ h₁ => ?_
  rw [Proc.ends_modify]
  exact p.reaches_trans (p.reaches_trans hmark h₁) (p.reaches_mark s₁)

end

end Stretches

/-! ### What a session does -/

/-- Whatever breaks in leaves the record being written alone. -/
lemma Nesting.keeps (p : Stretches σ) {x : Proc σ Unit} (h : Nesting x) :
    Proc.Keeps p.Follows (fun _ => False) x := by
  induction h with
  | nothing => exact Proc.keeps_pure ()
  | outside f => exact fun s => (Cell.ends_update _ _).2 ⟨p.reaches_rest _ s, current_rest _ s⟩
  | depending f each ih =>
    intro s
    rw [Proc.ends_bind, Cell.ends_read]
    exact ih (rest.get s) s
  | seq first second ih₁ ih₂ => exact ih₁.bind fun _ => ih₂
  | call g e interrupt onAccept acts ih₁ ih₂ ih₃ => exact Stretches.keeps_call ih₁ ih₂ ih₃

/-- From outside of any drain, a session ends, outside of any drain again. -/
lemma Session.ends (p : Stretches σ) {x : Proc σ Unit} (h : Session x) {s : σ}
    (hidle : (ring.get s).draining = false) :
    x.Ends s (fun _ s' => p.Reaches s s') fun _ => False := by
  induction h generalizing s with
  | nesting h => exact (h.keeps p s).imp fun _ _ h => h.1
  | depending f each ih =>
    rw [Proc.ends_bind, Cell.ends_read]
    exact ih (rest.get s) hidle
  | seq first second ih₁ ih₂ =>
    rw [Proc.ends_bind]
    refine (ih₁ hidle).imp fun _ s₁ h₁ => ?_
    have hidle₁ : (ring.get s₁).draining = false := (p.reaches_draining h₁).trans hidle
    exact (ih₂ hidle₁).imp fun _ s₂ h₂ => p.reaches_trans h₁ h₂
  | flush g onAccept => exact Stretches.ends_flush (fun b => (onAccept b).keeps p) hidle

end BoardSupport.Log
