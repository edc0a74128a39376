import BoardSupport.Proofs.Arbitration
import BoardSupport.Proofs.Station

/-!
Claims and completions under nested traps.

A handler may itself take an external trap, whose handlers may take another, to any depth. What
the policy and its handlers do is written down as marks: a claim, the call of a handler, its end,
a completion. `Nested` is the grammar of the marks; from it follow the bracketing of claims and
completions and which handler runs for which claim.
-/

namespace BoardSupport

/-! ### Registration -/

namespace SourceTable

variable {η : Type} {t t' : SourceTable η} {id i : Word} {h : η}

/-- The table after the calls, of which some may fail. -/
def registerAll (t : SourceTable η) : List (Word × η) → SourceTable η
  | [] => t
  | (id, h) :: calls =>
    match t.register id h with
    | .ok t' => t'.registerAll calls
    | .error _ => t.registerAll calls

/-- The handler of the first call for the source that succeeds. -/
def firstRegistered (t : SourceTable η) (id : Word) : List (Word × η) → Option η
  | [] => none
  | (i, h) :: calls =>
    match t.register i h with
    | .ok t' => if i = id then some h else t'.firstRegistered id calls
    | .error _ => t.firstRegistered id calls

lemma get?_register (ht : t.register i h = .ok t') (id : Word) :
    t.get? i = none ∧ t'.get? id = if i = id then some h else t.get? id := by
  unfold register at ht
  split at ht
  · next hlt =>
    split at ht
    · cases ht
    · next hnone =>
      cases ht
      refine ⟨hnone, ?_⟩
      by_cases hid : i = id
      · subst hid
        simp [get?, hlt]
      · have hne : i.toNat ≠ id.toNat := fun he => hid (BitVec.eq_of_toNat_eq he)
        simp [get?, hid, Vector.getElem?_setIfInBounds_ne hne]
  · cases ht

/-- A source has the handler it had, or the first one registered for it. -/
lemma get?_registerAll (t : SourceTable η) (id : Word) (calls : List (Word × η)) :
    (t.registerAll calls).get? id = (t.get? id).or (t.firstRegistered id calls) := by
  induction calls generalizing t with
  | nil => simp [registerAll, firstRegistered]
  | cons c calls ih =>
    obtain ⟨i, h⟩ := c
    unfold registerAll firstRegistered
    cases ht : t.register i h with
    -- a refused call leaves the table as it was
    | error e => exact ih t
    | ok t' =>
      obtain ⟨hnone, hget⟩ := get?_register ht id
      dsimp only
      rw [ih t', hget]
      by_cases hid : i = id
      · subst hid
        simp [hnone]
      · simp [hid]

lemma get?_registerAll_empty (id : Word) (calls : List (Word × η)) :
    ((empty : SourceTable η).registerAll calls).get? id =
      (empty : SourceTable η).firstRegistered id calls := by
  have hempty : (empty : SourceTable η).get? id = none := by
    simp only [get?, empty, Vector.getElem?_replicate]
    split <;> rfl
  rw [get?_registerAll, hempty, Option.none_or]

end SourceTable

/-! ### Brackets -/

namespace ClaimEvent

/-- The claims still open after the events, innermost first, with `opened` open before: none if
a claim is of an open source, or a completion is not of the innermost one. -/
def closes : (opened : List ℕ) → List ClaimEvent → Option (List ℕ)
  | opened, [] => some opened
  | opened, .claim id :: rest => if id ∈ opened then none else closes (id :: opened) rest
  | [], .complete _ :: _ => none
  | id' :: opened, .complete id :: rest => if id = id' then closes opened rest else none

end ClaimEvent

namespace Station

/-- What a policy and its handlers do. -/
inductive Mark (η : Type) where
  | claim (id : Word)
  | enter (h : η) (id : Word)
  | leave (h : η) (id : Word)
  | complete (id : Word)
  deriving DecidableEq

variable {η τ α β : Type}

def Mark.event? : Mark η → Option ClaimEvent
  | .claim id => some (.claim id.toNat)
  | .complete id => some (.complete id.toNat)
  | _ => none

/-- The marks in what happened: an access to the claim register, or a call of a handler. -/
def mark? : Happening η → Option (Mark η)
  | .load a _ v => if a = claimAddress ∧ v.toNat < Source.count then some (.claim v) else none
  | .store a w v => if a = claimAddress then some (.complete (w.cut v)) else none
  | .sent .. => none
  | .enter h id => some (.enter h id)
  | .leave h id => some (.leave h id)

/-- The marks of a loop of claims, whose handlers have the marks that `inner` allows while the
claims of `held` are open. -/
inductive Looped (handler : Word → Option η) (inner : BitVec 64 → List (Mark η) → Prop)
    (held : BitVec 64) : ℕ → List (Mark η) → Prop where
  | nil : Looped handler inner held 0 []
  | handled {n : ℕ} {id : Word} {h : η} {body rest : List (Mark η)} (lt : id.toNat < Source.count)
      (free : held.getLsbD id.toNat = false) (get : handler id = some h)
      (body_inner : inner (held ||| (1#64 <<< id.toNat)) body)
      (tail : Looped handler inner held n rest) :
      Looped handler inner held (n + 1)
        (.claim id :: .enter h id :: (body ++ .leave h id :: .complete id :: rest))
  | unhandled {n : ℕ} {id : Word} {rest : List (Mark η)} (lt : id.toNat < Source.count)
      (free : held.getLsbD id.toNat = false) (get : handler id = none)
      (tail : Looped handler inner held n rest) :
      Looped handler inner held (n + 1) (.claim id :: .complete id :: rest)

section

variable {handler : Word → Option η} {inner inner' : BitVec 64 → List (Mark η) → Prop}
  {held : BitVec 64} {n n' d d' : ℕ} {m m' : List (Mark η)}

lemma Looped.mono (h : Looped handler inner held n m)
    (himp : ∀ held m, inner held m → inner' held m) : Looped handler inner' held n m := by
  induction h with
  | nil => exact .nil
  | handled lt free get body_inner _ ih => exact .handled lt free get (himp _ _ body_inner) ih
  | unhandled lt free get _ ih => exact .unhandled lt free get ih

lemma Looped.append (h : Looped handler inner held n m) (h' : Looped handler inner held n' m') :
    Looped handler inner held (n + n') (m ++ m') := by
  induction h with
  | nil => rw [Nat.zero_add]; exact h'
  | @handled n id h body rest lt free get body_inner _ ih =>
    rw [show n + 1 + n' = n + n' + 1 by omega]
    simpa using Looped.handled lt free get body_inner ih
  | @unhandled n id rest lt free get _ ih =>
    rw [show n + 1 + n' = n + n' + 1 by omega]
    simpa using Looped.unhandled lt free get ih

/-- The marks of `n` claims whose handlers take traps in turn, up to a depth. -/
def Nested (handler : Word → Option η) : (depth : ℕ) → BitVec 64 → ℕ → List (Mark η) → Prop
  | 0, _, n, m => n = 0 ∧ m = []
  | d + 1, held, n, m => Looped handler (fun held m => ∃ k, Nested handler d held k m) held n m

lemma Nested.succ (h : Nested handler d held n m) : Nested handler (d + 1) held n m := by
  induction d generalizing held n m with
  | zero =>
    obtain ⟨rfl, rfl⟩ := h
    exact Looped.nil
  | succ d ih => exact Looped.mono h fun _ _ ⟨k, hk⟩ => ⟨k, ih hk⟩

lemma Nested.le (h : Nested handler d held n m) (hd : d ≤ d') : Nested handler d' held n m := by
  induction hd with
  | refl => exact h
  | step _ ih => exact ih.succ

lemma Nested.append (h : Nested handler d held n m) (h' : Nested handler d' held n' m') :
    ∃ d, Nested handler d held (n + n') (m ++ m') :=
  ⟨max d d' + 1, Looped.append (h.le (Nat.le_max_left d d')).succ
    (h'.le (Nat.le_max_right d d')).succ⟩

/-- A loop whose handlers nest is itself nested, one deeper than the deepest of them. -/
lemma Looped.nested (h : Looped handler (fun held m => ∃ d k, Nested handler d held k m) held n m) :
    ∃ d, Nested handler (d + 1) held n m := by
  induction h with
  | nil => exact ⟨0, Looped.nil⟩
  | handled lt free get body_inner _ ih =>
    obtain ⟨d, k, hbody⟩ := body_inner
    obtain ⟨d', hrest⟩ := ih
    exact ⟨max d d', Looped.handled lt free get ⟨k, hbody.le (Nat.le_max_left d d')⟩
      (hrest.le (Nat.succ_le_succ (Nat.le_max_right d d')))⟩
  | unhandled lt free get _ ih =>
    obtain ⟨d, hrest⟩ := ih
    exact ⟨d, Looped.unhandled lt free get hrest⟩

/-- The claims and completions among the marks. -/
def events (m : List (Mark η)) : List ClaimEvent := m.filterMap Mark.event?

@[simp] lemma events_nil : events ([] : List (Mark η)) = [] := rfl
@[simp] lemma events_claim (id : Word) :
    events (.claim id :: m) = .claim id.toNat :: events m := rfl
@[simp] lemma events_enter (h : η) (id : Word) : events (.enter h id :: m) = events m := rfl
@[simp] lemma events_leave (h : η) (id : Word) : events (.leave h id :: m) = events m := rfl
@[simp] lemma events_complete (id : Word) :
    events (.complete id :: m) = .complete id.toNat :: events m := rfl
@[simp] lemma events_append : events (m ++ m') = events m ++ events m' := List.filterMap_append

/-- What is nested opens and closes, whatever claims are open around it. -/
lemma Nested.closes (h : Nested handler d held n m) (opened : List ℕ)
    (hopen : ∀ id ∈ opened, held.getLsbD id = true) (rest : List ClaimEvent) :
    ClaimEvent.closes opened (events m ++ rest) = ClaimEvent.closes opened rest := by
  induction d generalizing held n m opened rest with
  | zero =>
    obtain ⟨-, rfl⟩ := h
    rfl
  | succ d ih =>
    change Looped _ _ _ _ _ at h
    induction h with
    | nil => rfl
    | @handled n id h body tail lt free get body_inner _ iht =>
      -- all that the handler opened is closed when the claim itself is
      obtain ⟨k, hbody⟩ := body_inner
      have hnew : id.toNat ∉ opened := fun hmem => by simp [hopen _ hmem] at free
      have hopen' : ∀ j ∈ id.toNat :: opened,
          (held ||| (1#64 <<< id.toNat)).getLsbD j = true := by
        intro j hj
        rcases List.mem_cons.1 hj with rfl | hj
        · simp only [Source.count] at lt
          simp [lt]
        · simp [hopen j hj]
      have hlist : events (.claim id :: .enter h id ::
          (body ++ .leave h id :: .complete id :: tail)) ++ rest =
          .claim id.toNat :: (events body ++ (.complete id.toNat :: (events tail ++ rest))) := by
        simp
      rw [hlist, ClaimEvent.closes, if_neg hnew, ih hbody _ hopen', ClaimEvent.closes, if_pos rfl]
      exact iht
    | @unhandled n id tail lt free get _ iht =>
      have hnew : id.toNat ∉ opened := fun hmem => by simp [hopen _ hmem] at free
      have hlist : events (.claim id :: .complete id :: tail : List (Mark η)) ++ rest =
          .claim id.toNat :: .complete id.toNat :: (events tail ++ rest) := by
        simp
      rw [hlist, ClaimEvent.closes, if_neg hnew, ClaimEvent.closes, if_pos rfl]
      exact iht

lemma Nested.closed (h : Nested handler d held n m) :
    ClaimEvent.closes [] (events m) = some [] := by
  have hcloses := h.closes [] (by simp) []
  rw [List.append_nil] at hcloses
  rw [hcloses, ClaimEvent.closes]

/-- Where handlers leave no marks, claims and completions alternate. -/
lemma Looped.alternates (h : Looped handler (fun _ m => m = []) held n m) :
    ∃ ids : List ℕ, ids.length = n ∧
      events m = ids.flatMap fun id => [.claim id, .complete id] := by
  induction h with
  | nil => exact ⟨[], rfl, rfl⟩
  | @handled n id h body tail lt free get body_inner _ ih =>
    obtain ⟨ids, hlen, hids⟩ := ih
    subst body_inner
    refine ⟨id.toNat :: ids, by simp [hlen], ?_⟩
    rw [List.flatMap_cons, ← hids]
    simp
  | @unhandled n id tail lt free get _ ih =>
    obtain ⟨ids, hlen, hids⟩ := ih
    refine ⟨id.toNat :: ids, by simp [hlen], ?_⟩
    rw [List.flatMap_cons, ← hids]
    simp

end

/-! ### Runs -/

variable {s s' s'' : Station η τ} {m m' : List (Mark η)}

def marks (t : List (Happening η)) : List (Mark η) := t.filterMap mark?

@[simp] lemma marks_nil : marks ([] : List (Happening η)) = [] := rfl
@[simp] lemma marks_append (t t' : List (Happening η)) : marks (t ++ t') = marks t ++ marks t' :=
  List.filterMap_append

/-- From `s` to `s'` these marks were left, and the controller recorded their events. -/
structure Left (m : List (Mark η)) (s s' : Station η τ) : Prop where
  trace : ∃ t, s'.trace = s.trace ++ t ∧ marks t = m
  events : s'.board.arbiter.events = s.board.arbiter.events ++ events m

lemma Left.trans (h : Left m s s') (h' : Left m' s' s'') : Left (m ++ m') s s'' := by
  obtain ⟨t, ht, hm⟩ := h.trace
  obtain ⟨t', ht', hm'⟩ := h'.trace
  refine ⟨⟨t ++ t', by rw [ht', ht, List.append_assoc], by rw [marks_append, hm, hm']⟩, ?_⟩
  rw [h'.events, h.events, events_append, List.append_assoc]

/-- No mark was left, and the same claims are open. -/
structure Quietly (s s' : Station η τ) : Prop where
  left : Left [] s s'
  claimed : s'.board.arbiter.claimed = s.board.arbiter.claimed

instance : IsPreorder (Station η τ) Quietly where
  refl s := ⟨⟨⟨[], by simp⟩, by simp⟩, rfl⟩
  trans _ _ _ h h' := ⟨h.left.trans h'.left, h'.claimed.trans h.claimed⟩

lemma quietly_of_eq (ht : s'.trace = s.trace)
    (he : s'.board.arbiter.events = s.board.arbiter.events)
    (hc : s'.board.arbiter.claimed = s.board.arbiter.claimed) : Quietly s s' :=
  ⟨⟨⟨[], by simp [ht]⟩, by simp [he]⟩, hc⟩

/-- A procedure that keeps away from the claim register. -/
abbrev Quiet (x : Proc (Station η τ) α) : Prop := Proc.Keeps Quietly (fun _ => True) x

lemma act_quietly (s : Station η τ) (a : Outside) : Quietly s (s.act a) := by
  cases a with
  | send link unit =>
    exact ⟨⟨⟨[.sent link unit _], rfl, rfl⟩, by simp [act, Board.peerSend]⟩,
      by simp [act, Board.peerSend]⟩
  | take link n =>
    exact quietly_of_eq rfl (by simp [act, Board.peerDrain]) (by simp [act, Board.peerDrain])
  | rewire link wire =>
    exact quietly_of_eq rfl (by simp [act, Board.setWire]) (by simp [act, Board.setWire])
  | request id =>
    rw [act_request]
    exact quietly_of_eq rfl rfl rfl

lemma meanwhile_quietly (s : Station η τ) : Quietly s s.meanwhile :=
  meanwhile_of_act act_quietly (fun _ => quietly_of_eq rfl rfl rfl) s

section

variable {log : Log.Record → Proc (Station η τ) Unit} {patience : ℕ}

lemma quiet_load {a : ℕ} (h : a ≠ claimAddress) (w : Width) :
    Quiet ((platform log patience).load a w) := by
  intro s
  rw [ends_load]
  split
  · next v board hb =>
    refine trans_of _ (meanwhile_quietly s) ?_
    have harb : board.arbiter = s.meanwhile.board.arbiter := by
      rcases Board.load_cases hb with ⟨-, -, rfl⟩ | ⟨ha, -⟩ | ⟨l, u, q, -, -, -, rfl⟩
      · rfl
      · exact absurd ha h
      · exact Board.setQueues_arbiter _ _ _
    exact ⟨⟨⟨[.load a w v], rfl, by simp [marks, mark?, h]⟩, by simp [harb]⟩, by simp [harb]⟩
  · trivial

lemma quiet_store {a : ℕ} (h : a ≠ claimAddress) (w : Width) (v : Word) :
    Quiet ((platform log patience).store a w v) := by
  intro s
  rw [ends_store]
  obtain ⟨hclaimed, hevents⟩ := s.meanwhile.board.store_claimed_of_ne h w v
  refine trans_of _ (meanwhile_quietly s) ?_
  exact ⟨⟨⟨[.store a w v], rfl, by simp [marks, mark?, h]⟩, by simp [hevents]⟩, hclaimed⟩

lemma ends_claim (hlog : ∀ r, Quiet (log r)) :
    (Controller.claim (platform log patience)).Ends s (fun r s' =>
      match r with
      | none => Quietly s s'
      | some id => id.toNat < Source.count ∧ s.board.arbiter.claimed.getLsbD id.toNat = false ∧
        Left [.claim id] s s' ∧
        s'.board.arbiter.claimed = s.board.arbiter.claimed ||| (1#64 <<< id.toNat))
      fun _ => True := by
  obtain ⟨hleft, hclaimed⟩ := meanwhile_quietly s
  rw [Controller.claim_eq, Proc.ends_bind, ends_load, Board.load_claim]
  rcases s.meanwhile.board.arbiter.claim_cases s.meanwhile.board.sourcePending with
    ⟨-, hclaim⟩ | ⟨id, -, hlt, hfree, hclaim⟩
  · -- the number read is that of no source
    rw [hclaim]
    dsimp only
    rw [if_neg (by decide), Proc.ends_pure]
    refine trans_of _ (meanwhile_quietly s) ?_
    exact ⟨⟨⟨[.load claimAddress .word (BitVec.ofNat 32 Source.count)], rfl, rfl⟩, by simp⟩, rfl⟩
  · -- the source was free, and is held from here on
    have hid : (BitVec.ofNat 32 id).toNat = id := by
      simp only [Source.count] at hlt
      rw [BitVec.toNat_ofNat]
      omega
    rw [hclaim]
    dsimp only
    rw [Width.cut_word, hid, if_pos hlt, Proc.ends_bind]
    refine (hlog _ _).imp fun _ s' hquiet => ?_
    rw [Proc.ends_pure]
    have hload : Left [.claim (BitVec.ofNat 32 id)] s.meanwhile
        (s.meanwhile.saw { s.meanwhile.board with arbiter := s.meanwhile.board.arbiter.taken id }
          (.load claimAddress .word (BitVec.ofNat 32 id))) :=
      ⟨⟨_, rfl, by simp [marks, mark?, hid, hlt]⟩, by simp [Arbiter.taken, hid]⟩
    refine ⟨by rw [hid]; exact hlt, ?_, ?_, ?_⟩
    · rw [hid, ← hclaimed]; exact hfree
    · exact hleft.trans (hload.trans hquiet.left)
    · rw [hquiet.claimed, hid, ← hclaimed]; rfl

lemma ends_complete (hlog : ∀ r, Quiet (log r)) (id : Word) :
    (Controller.complete (platform log patience) id).Ends s (fun _ s' =>
      Left [.complete id] s s' ∧
      s'.board.arbiter.claimed =
        if id.toNat < Source.count then
          s.board.arbiter.claimed &&& ~~~(1#64 <<< id.toNat)
        else s.board.arbiter.claimed) fun _ => True := by
  rw [Controller.complete_eq, Proc.ends_bind]
  refine (hlog _ _).imp fun _ s₁ hquiet => ?_
  obtain ⟨hleft, hclaimed⟩ : Quietly s s₁.meanwhile := trans_of _ hquiet (meanwhile_quietly s₁)
  rw [ends_store, Board.store_claim]
  have hstore : Left [.complete id] s₁.meanwhile (s₁.meanwhile.saw
      { s₁.meanwhile.board with arbiter := s₁.meanwhile.board.arbiter.complete id.toNat }
      (.store claimAddress .word id)) :=
    ⟨⟨_, rfl, by simp [marks, mark?]⟩, by simp [Arbiter.complete]⟩
  refine ⟨hleft.trans hstore, ?_⟩
  rw [← hclaimed]
  rfl

/-- A handler whose calls leave marks. -/
def marked (serve : η → Word → Proc (Station η τ) Unit) (h : η) (id : Word) :
    Proc (Station η τ) Unit := do
  modify fun s => { s with trace := s.trace ++ [.enter h id] }
  serve h id
  modify fun s => { s with trace := s.trace ++ [.leave h id] }

/-- Every run of the procedure leaves marks that `inner` allows, and the same claims open. -/
def Leaves (inner : BitVec 64 → List (Mark η) → Prop) (x : Proc (Station η τ) α) : Prop :=
  ∀ s, x.Ends s (fun _ s' => ∃ m, inner s.board.arbiter.claimed m ∧ Left m s s' ∧
    s'.board.arbiter.claimed = s.board.arbiter.claimed) fun _ => True

variable {inner : BitVec 64 → List (Mark η) → Prop} {table : SourceTable η}
  {serve : η → Word → Proc (Station η τ) Unit}

/-- From a claim to its completion: the handler of the source runs once, if there is one. -/
lemma ends_serveClaim (hlog : ∀ r, Quiet (log r)) (hserve : ∀ h id, Leaves inner (serve h id))
    {id : Word} {s₀ : Station η τ} (hlt : id.toNat < Source.count)
    (hfree : s₀.board.arbiter.claimed.getLsbD id.toNat = false) (hclaim : Left [.claim id] s₀ s)
    (hclaimed : s.board.arbiter.claimed = s₀.board.arbiter.claimed ||| (1#64 <<< id.toNat)) :
    (SourceTable.serveClaim (platform log patience) (.fixed table) (marked serve) id).Ends s
      (fun _ s' => ∃ m, Looped table.get? inner s₀.board.arbiter.claimed 1 m ∧ Left m s₀ s' ∧
        s'.board.arbiter.claimed = s₀.board.arbiter.claimed) fun _ => True := by
  -- however the claim was served, its completion closes it
  have finish : ∀ {m : List (Mark η)} {s₁ : Station η τ}, Left m s₀ s₁ →
      s₁.board.arbiter.claimed = s₀.board.arbiter.claimed ||| (1#64 <<< id.toNat) →
      Looped table.get? inner s₀.board.arbiter.claimed 1 (m ++ [.complete id]) →
      (do
        (platform log patience).trace SourceTable.path 87
          ("finished interrupt " ++ Text.decimal id.toNat)
        Controller.complete (platform log patience) id).Ends s₁
        (fun _ s' => ∃ m, Looped table.get? inner s₀.board.arbiter.claimed 1 m ∧ Left m s₀ s' ∧
          s'.board.arbiter.claimed = s₀.board.arbiter.claimed) fun _ => True := by
    intro m s₁ hleft hopen hloop
    rw [Proc.ends_bind]
    refine (hlog _ s₁).imp fun _ s₂ h₂ => (ends_complete hlog id).imp ?_
    rintro _ s₃ ⟨hcomplete, hclosed⟩
    refine ⟨_, hloop, hleft.trans (h₂.left.trans hcomplete), ?_⟩
    rw [hclosed, if_pos hlt, h₂.claimed, hopen, Arbiter.unmark_mark hfree]
  unfold SourceTable.serveClaim
  rw [Proc.ends_bind]
  refine (hlog _ s).imp fun _ s₁ h₁ => ?_
  rw [Proc.ends_bind, Cell.ends_read, Cell.fixed_get]
  split
  · next h hget =>
    -- what the handler leaves stands between its start and its end
    rw [Proc.ends_bind]
    simp only [marked, Proc.ends_bind, Proc.ends_modify]
    refine (hserve h id _).imp ?_
    rintro _ s₂ ⟨body, hbody, hleft, hkept⟩
    have henter : Left [.enter h id] s₁ { s₁ with trace := s₁.trace ++ [.enter h id] } :=
      ⟨⟨_, rfl, rfl⟩, by simp⟩
    have hleave : Left [.leave h id] s₂ { s₂ with trace := s₂.trace ++ [.leave h id] } :=
      ⟨⟨_, rfl, rfl⟩, by simp⟩
    have hopen : s₂.board.arbiter.claimed =
        s₀.board.arbiter.claimed ||| (1#64 <<< id.toNat) := by
      rw [hkept, ← hclaimed, ← h₁.claimed]
    have hbody' : inner (s₀.board.arbiter.claimed ||| (1#64 <<< id.toNat)) body := by
      rw [← hopen, hkept]; exact hbody
    refine Proc.ends_bind.1
      (finish (hclaim.trans (h₁.left.trans (henter.trans (hleft.trans hleave)))) hopen ?_)
    simpa using Looped.handled hlt hfree hget hbody' .nil
  · next hget =>
    -- without a handler the source is only completed
    rw [Proc.ends_bind]
    refine (hlog _ s₁).imp fun _ s₂ h₂ => ?_
    refine finish (hclaim.trans (h₁.left.trans h₂.left)) ?_ ?_
    · rw [h₂.claimed, h₁.claimed, hclaimed]
    · simpa using Looped.unhandled hlt hfree hget .nil

/-- The loop of claims has as many claims as it says, with the handlers' marks inside. -/
lemma ends_process (hlog : ∀ r, Quiet (log r)) (hserve : ∀ h id, Leaves inner (serve h id)) :
    (SourceTable.process (platform log patience) (.fixed table) (marked serve)).Ends s
      (fun n s' => ∃ m, Looped table.get? inner s.board.arbiter.claimed n m ∧ Left m s s' ∧
        s'.board.arbiter.claimed = s.board.arbiter.claimed) fun _ => True := by
  rw [SourceTable.process, Proc.ends_iterate]
  -- every claim that was counted has left its marks
  refine Proc.ends_rounds (M := fun _ claims s' =>
    ∃ m, Looped table.get? inner s.board.arbiter.claimed claims m ∧ Left m s s' ∧
      s'.board.arbiter.claimed = s.board.arbiter.claimed)
    (fun _ _ claims s₁ h₁ => ?_) (fun _ _ _ => trivial)
    ⟨[], .nil, (refl_of Quietly s).left, rfl⟩
  obtain ⟨m, hloop, hleft, hkept⟩ := h₁
  rw [Proc.ends_bind]
  refine (ends_claim hlog).imp fun r s₂ hr => ?_
  cases r with
  | none =>
    have hquiet : Left m s s₂ := by simpa using hleft.trans hr.left
    exact (Proc.ends_pure _).2 ⟨m, hloop, hquiet, hr.claimed.trans hkept⟩
  | some id =>
    obtain ⟨hlt, hfree, hclaim, hclaimed⟩ := hr
    rw [Proc.ends_bind]
    refine (ends_serveClaim hlog hserve hlt hfree hclaim hclaimed).imp ?_
    rintro _ s₃ ⟨m', hloop', hleft', hkept'⟩
    rw [hkept] at hloop' hkept'
    exact (Proc.ends_pure _).2 ⟨m ++ m', hloop.append hloop', hleft.trans hleft', hkept'⟩

end

/-! ### Handlers that take traps -/

/-- What handlers are made of: they keep away from the claim register, except that they may take
external traps, whose handlers are made the same way. -/
inductive Handling (p : Platform (Station η τ)) (table : SourceTable η) :
    {α : Type} → Proc (Station η τ) α → Prop where
  | quiet {α : Type} {x : Proc (Station η τ) α} (hx : Quiet x) : Handling p table x
  | bind {α β : Type} {x : Proc (Station η τ) α} {f : α → Proc (Station η τ) β}
      (hx : Handling p table x) (hf : ∀ a, Handling p table (f a)) : Handling p table (x >>= f)
  | process {serve : η → Word → Proc (Station η τ) Unit}
      (hserve : ∀ h id, Handling p table (serve h id)) :
      Handling p table (SourceTable.process p (.fixed table) (marked serve))

section

variable {log : Log.Record → Proc (Station η τ) Unit} {patience : ℕ} {table : SourceTable η}
  {serve : η → Word → Proc (Station η τ) Unit}

lemma Handling.leaves (hlog : ∀ r, Quiet (log r)) {x : Proc (Station η τ) α}
    (hx : Handling (platform log patience) table x) :
    Leaves (fun held m => ∃ d k, Nested table.get? d held k m) x := by
  induction hx with
  | quiet hx =>
    exact fun s => (hx s).imp fun _ s' h => ⟨[], ⟨0, 0, rfl, rfl⟩, h.left, h.claimed⟩
  | bind _ _ ihx ihf =>
    intro s
    rw [Proc.ends_bind]
    refine (ihx s).imp ?_
    rintro a s₁ ⟨m, ⟨d, k, hnested⟩, hleft, hkept⟩
    refine (ihf a s₁).imp ?_
    rintro b s₂ ⟨m', ⟨d', k', hnested'⟩, hleft', hkept'⟩
    rw [hkept] at hnested' hkept'
    obtain ⟨d, hboth⟩ := hnested.append hnested'
    exact ⟨m ++ m', ⟨d, k + k', hboth⟩, hleft.trans hleft', hkept'⟩
  | process _ ih =>
    intro s
    refine (ends_process hlog ih).imp ?_
    rintro n s' ⟨m, hloop, hleft, hkept⟩
    obtain ⟨d, hnested⟩ := hloop.nested
    exact ⟨m, ⟨d + 1, n, hnested⟩, hleft, hkept⟩

/-- A handler may also go through the dispatcher. -/
lemma Handling.trap (hlog : ∀ r, Quiet (log r))
    (hserve : ∀ h id, Handling (platform log patience) table (serve h id)) (address : ℕ) :
    Handling (platform log patience) table
      (trap (platform log patience) table (marked serve) address) := by
  have hphase : ∀ f, Quiet (phaseCell.update f : Proc (Station η τ) Unit) := fun f s =>
    (Cell.ends_update _ f).2 (quietly_of_eq rfl rfl rfl)
  have hwrite : ∀ a, Quiet (phaseCell.write a : Proc (Station η τ) Unit) := fun a =>
    hphase fun _ => a
  have hclass : ∀ c, Handling (platform log patience) table
      (classes (platform log patience) table (marked serve) c) := by
    intro c
    cases c with
    | external =>
      rw [classes, Proc.discard_eq_bind]
      exact (Handling.process hserve).bind fun _ => .quiet (Proc.keeps_pure ())
    | software => exact .quiet (Proc.keeps_pure ())
    | timer => exact .quiet (Proc.keeps_pure ())
  unfold Station.trap Trap.dispatch
  refine .bind (.quiet (Proc.keeps_read _)) fun previous => ?_
  split
  · exact .quiet ((hwrite _).bind fun _ => (hlog _).bind fun _ => Proc.keeps_pure _)
  · split
    · exact .quiet ((hlog _).bind fun _ => Proc.keeps_pure _)
    · next c _ =>
      have hend : Handling (platform log patience) table (do
          (platform log patience).trace Trap.path 186
            ("dispatch " ++ Trap.Cause.text ⟨0x8000000b#32⟩)
          classes (platform log patience) table (marked serve) c
          phaseCell.update (·.leave previous)
          return (.ok address : Except Trap.Fatal ℕ)) :=
        .bind (.quiet (hlog _)) fun _ => (hclass c).bind fun _ =>
          .quiet ((hphase _).bind fun _ => Proc.keeps_pure _)
      split
      · exact .bind (.quiet (hwrite _)) fun _ => hend
      · exact .bind (.quiet (hlog _)) fun _ => hend

/-- **Pairing.** Whenever the policy returns, whatever traps its handlers took, its claims and
completions are bracketed and the same claims are open as before. Each claim of a source that was
free ran the handler registered first for it, once and before the completion, or none if there is
none; and the policy returns the number of its own claims. Where no handler takes a trap, claims
and completions alternate. -/
theorem process_pairs (calls : List (Word × η)) (log : Log.Record → Proc (Station η τ) Unit)
    (patience : ℕ) (serve : η → Word → Proc (Station η τ) Unit) (hlog : ∀ r, Quiet (log r))
    (hserve : ∀ h id, Handling (platform log patience) (SourceTable.empty.registerAll calls)
      (serve h id)) (s : Station η τ) :
    (SourceTable.process (platform log patience) (.fixed (SourceTable.empty.registerAll calls))
      (marked serve)).Ends s
      (fun n s' => ∃ t, s'.trace = s.trace ++ t ∧
        s'.board.arbiter.events = s.board.arbiter.events ++ events (marks t) ∧
        ClaimEvent.closes [] (events (marks t)) = some [] ∧
        s'.board.arbiter.claimed = s.board.arbiter.claimed ∧
        (∃ depth, Nested (fun id => SourceTable.empty.firstRegistered id calls) depth
          s.board.arbiter.claimed n (marks t)) ∧
        ((∀ h id, Quiet (serve h id)) → ∃ ids : List ℕ, ids.length = n ∧
          events (marks t) = ids.flatMap fun id => [.claim id, .complete id]))
      fun _ => True := by
  have hget : (SourceTable.empty.registerAll calls).get? =
      fun id => SourceTable.empty.firstRegistered id calls :=
    funext fun id => SourceTable.get?_registerAll_empty id calls
  by_cases hquiet : ∀ h id, Quiet (serve h id)
  · -- a quiet handler makes no claim within its own
    have hleaves : ∀ h id, Leaves (fun _ m => m = []) (serve h id) := fun h id s =>
      (hquiet h id s).imp fun _ s' hq => ⟨[], rfl, hq.left, hq.claimed⟩
    refine (ends_process hlog hleaves).imp ?_
    rintro n s' ⟨m, hloop, ⟨⟨t, ht, rfl⟩, hevents⟩, hkept⟩
    rw [hget] at hloop
    have hnested : Nested _ 1 s.board.arbiter.claimed n (marks t) :=
      Looped.mono hloop fun _ _ hm => ⟨0, rfl, hm⟩
    exact ⟨t, ht, hevents, hnested.closed, hkept, ⟨1, hnested⟩, fun _ => hloop.alternates⟩
  · have hleaves := fun h id => (hserve h id).leaves hlog
    refine (ends_process hlog hleaves).imp ?_
    rintro n s' ⟨m, hloop, ⟨⟨t, ht, rfl⟩, hevents⟩, hkept⟩
    obtain ⟨d, hnested⟩ := hloop.nested
    rw [hget] at hnested
    exact ⟨t, ht, hevents, hnested.closed, hkept, ⟨d + 1, hnested⟩, fun h => absurd h hquiet⟩

end

/-- The second call for source 8 fails. -/
def pinCalls : List (Word × Bool) := [(8#32, true), (9#32, false), (8#32, false)]

/-- The handler of one pin raises the other and takes the trap at once; the other one writes back
what it reads from the controller. -/
def servePin (h : Bool) (_ : Word) : Proc (Station Bool Unit) Unit :=
  if h then do
    modify (act · (.request ⟨9, by decide⟩))
    discard (trap (platform (fun _ => pure ()) 4) (SourceTable.empty.registerAll pinCalls)
      (marked fun _ _ => pure ()) 0)
  else do
    let v ← (platform (fun _ => pure ()) 4).load MemoryMap.system .word
    (platform (fun _ => pure ()) 4).store MemoryMap.system .word v

/-- Two pins are enabled, and one asks for service. -/
def twoPins : Station Bool Unit where
  board :=
    { arbiter :=
        { priority := Vector.replicate _ 1#32
          enable := #v[0x300#32, 0#32]
          raised := 0x100#64 } }
  buffer := .new .byte 0
  rest := ()

/-- What the policy returned, and the marks that it left. -/
def pairOutcome : EStateM.Result Halt (Station Bool Unit) ℕ → Option (ℕ × List (Mark Bool))
  | .ok n s => some (n, marks s.trace)
  | .error _ _ => none

lemma handling_servePin (h : Bool) (id : Word) : Handling (platform (fun _ => pure ()) 4)
    (SourceTable.empty.registerAll pinCalls) (servePin h id) := by
  cases h with
  | false =>
    have hne : MemoryMap.system ≠ claimAddress := by decide
    exact .quiet ((quiet_load hne .word).bind fun v => quiet_store hne .word v)
  | true =>
    refine .bind (.quiet fun s => (Proc.ends_modify _).2 (act_quietly s _)) fun _ => ?_
    rw [Proc.discard_eq_bind]
    exact .bind (Handling.trap (fun _ => Proc.keeps_pure ())
      (fun _ _ => .quiet (Proc.keeps_pure ())) 0) fun _ => .quiet (Proc.keeps_pure ())

/-- The policy makes one claim of its own. The other pin is claimed, served and completed inside of
it, and both are free again at the end. -/
theorem process_pairs_twoPins :
    ∃ s', SourceTable.process (platform (fun _ => pure ()) 4)
        (.fixed (SourceTable.empty.registerAll pinCalls)) (marked servePin) twoPins = .ok 1 s' ∧
      marks s'.trace = [.claim 8#32, .enter true 8#32, .claim 9#32, .enter false 9#32,
        .leave false 9#32, .complete 9#32, .leave true 8#32, .complete 8#32] ∧
      s'.board.arbiter.events = [.claim 8, .claim 9, .complete 9, .complete 8] ∧
      ClaimEvent.closes [] s'.board.arbiter.events = some [] ∧
      s'.board.arbiter.claimed = 0#64 := by
  have hpairs := process_pairs pinCalls (fun _ => pure ()) 4 servePin
    (fun _ => Proc.keeps_pure ()) handling_servePin twoPins
  have houtcome : pairOutcome (SourceTable.process (platform (fun _ => pure ()) 4)
      (.fixed (SourceTable.empty.registerAll pinCalls)) (marked servePin) twoPins) =
      some (1, [.claim 8#32, .enter true 8#32, .claim 9#32, .enter false 9#32,
        .leave false 9#32, .complete 9#32, .leave true 8#32, .complete 8#32]) := by decide +kernel
  cases hrun : SourceTable.process (platform (fun _ => pure ()) 4)
      (.fixed (SourceTable.empty.registerAll pinCalls)) (marked servePin) twoPins with
  | error e s' =>
    rw [hrun] at houtcome
    cases houtcome
  | ok n s' =>
    rw [hrun] at houtcome
    obtain ⟨rfl, hmarks⟩ := Prod.mk.inj (Option.some.inj houtcome)
    obtain ⟨t, htrace, hevents, hcloses, hclaimed, -, -⟩ := hpairs.of_ok hrun
    obtain rfl : s'.trace = t := htrace
    rw [hmarks] at hevents hcloses
    exact ⟨s', rfl, hmarks, hevents, by rw [hevents]; exact hcloses, hclaimed⟩

end Station

end BoardSupport
