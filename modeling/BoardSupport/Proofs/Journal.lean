import BoardSupport.Proofs.Chronicle

/-!
The log's account of its losses.

A `Journal` is a chronicle that keeps account of the drains as well: which records were cut short
before each of them began, what it handed to the sink and which chunks it took from the ring.
`Squares` says that the ring and the account agree.
-/

namespace BoardSupport.Log

/-! ### The account -/

/-- A record was cut short, and how many positions had then been reserved and drained. -/
structure Cut where
  record : ℕ
  reserved : ℕ
  drained : ℕ

/-- A drain, from when it takes hold of the sink until it lets go. -/
structure Drain where
  /-- What was cut short since the drain before began. -/
  cuts : List Cut
  handed : List (List UInt8) := []
  /-- The chunks in the slots that were freed. -/
  freed : List (List UInt8) := []

namespace Drain

/-- A notice is due if something was cut short. -/
def due (d : Drain) : List (List UInt8) :=
  match d.cuts with
  | [] => []
  | _ :: _ => [Text.utf8 lostNotice]

/-- The sink has got what was due, then the chunks of the slots in order, and nothing else. -/
def Balanced (d : Drain) : Prop := d.handed = d.due ++ d.freed

end Drain

structure Account where
  /-- How many positions were drained. -/
  drained : ℕ := 0
  /-- What was cut short since the last drain began. -/
  cuts : List Cut := []
  /-- The drain that is going on. -/
  drain : Option Drain := none
  /-- The drains that are over. -/
  past : List Drain := []
  /-- What the sink was handed outside of any drain. -/
  stray : List (List UInt8) := []

namespace Account

def allCuts (a : Account) : List Cut := (a.past ++ a.drain.toList).flatMap Drain.cuts ++ a.cuts

def hand (chunk : List UInt8) (a : Account) : Account :=
  match a.drain with
  | some d => { a with drain := some { d with handed := d.handed ++ [chunk] } }
  | none => { a with stray := a.stray ++ [chunk] }

def cut (record reserved : ℕ) (a : Account) : Account :=
  { a with cuts := a.cuts ++ [⟨record, reserved, a.drained⟩] }

def free (chunk : Option (List UInt8)) (a : Account) : Account :=
  { a with
    drained := a.drained + 1
    drain := a.drain.map fun d => { d with freed := d.freed ++ chunk.toList } }

def begin (a : Account) : Account := { a with cuts := [], drain := some { cuts := a.cuts } }

def finish (a : Account) : Account := { a with drain := none, past := a.past ++ a.drain.toList }

/-- The ring `r` becomes `r'`, with the given record being written and that many positions
reserved. -/
def after (record reserved : ℕ) (r r' : Ring) (a : Account) : Account :=
  let cut := if r.lost < r'.lost then a.cut record reserved else a
  let freed := if r'.tail = r.tail then cut else cut.free r.front?
  if r'.draining = r.draining then freed
  else if r'.draining then freed.begin
  else freed.finish

variable {record reserved : ℕ} {r r' : Ring} (a : Account)

/-- What a record does to the ring shows only in the count of lost records. -/
lemma after_of_tail_eq (htail : r'.tail = r.tail) (hdraining : r'.draining = r.draining) :
    a.after record reserved r r' = if r.lost < r'.lost then a.cut record reserved else a := by
  simp [after, htail, hdraining]

lemma after_self : a.after record reserved r r = a := by
  simp [after]

lemma after_forgetLost : a.after record reserved r r.forgetLost = a := by
  simp [after, Ring.forgetLost]

lemma after_pop : a.after record reserved r r.pop = a.free r.front? := by
  have htail : r.tail + 1#64 ≠ r.tail := by bv_omega
  simp [after, Ring.pop, Ring.setSlot, htail]

lemma after_begin (hidle : r.draining = false) :
    a.after record reserved r { r with draining := true } = a.begin := by
  simp [after, hidle]

lemma after_finish (hdraining : r.draining = true) :
    a.after record reserved r { r with draining := false } = a.finish := by
  simp [after, hdraining]

lemma hand_eq {d : Drain} (hd : a.drain = some d) (chunk : List UInt8) :
    a.hand chunk = { a with drain := some { d with handed := d.handed ++ [chunk] } } := by
  simp [hand, hd]

@[simp] lemma allCuts_cut :
    (a.cut record reserved).allCuts = a.allCuts ++ [⟨record, reserved, a.drained⟩] := by
  simp [allCuts, cut]

@[simp] lemma allCuts_free (chunk : Option (List UInt8)) : (a.free chunk).allCuts = a.allCuts := by
  cases hd : a.drain <;> simp [allCuts, free, hd]

lemma allCuts_hand (chunk : List UInt8) : (a.hand chunk).allCuts = a.allCuts := by
  cases hd : a.drain <;> simp [allCuts, hand, hd]

lemma allCuts_begin (hidle : a.drain = none) : a.begin.allCuts = a.allCuts := by
  simp [allCuts, begin, hidle]

@[simp] lemma allCuts_finish : a.finish.allCuts = a.allCuts := by
  simp [allCuts, finish]

end Account

/-! ### Who is counted as lost -/

namespace Chronicle

variable {τ : Type} {N t t' i : ℕ} {s s' : Chronicle τ} {l new : List (Option (List UInt8))}
  {os : List ℕ} {O : Option ℕ}

/-- Record `i` was counted as lost exactly if the slots it got are too few for its text. -/
def Apt (s : Chronicle τ) (i : ℕ) : Prop :=
  ∃ text, s.texts[i]? = some text ∧ (i ∈ s.lost ↔ slotLength * s.owners.count i < text.length)

/-- So it is with every record from the `n`th on. -/
def Fair (n : ℕ) (s : Chronicle τ) : Prop := ∀ i, n ≤ i → i < s.texts.length → Apt s i

/-- In a full ring the positions reserved are those drained and one for each slot. -/
lemma Tells.owners_length_of_full (h : Tells N t l s) (hfull : s.ring.used = N) :
    s.owners.length = s.ring.tail.toNat + N := by
  have hused := h.holds.used_eq
  have hle := h.holds.le
  rw [h.owners_length, h.holds.toNat_tail]
  omega

/-- A record that began before gets no more slots. -/
lemma Grown.count_of_lt (h : Grown N O t l s t' new os s') (hi : i < s.texts.length) :
    s'.owners.count i = s.owners.count i := by
  have hnone : i ∉ os := fun hmem => by have := h.began i hmem; omega
  rw [h.owners, List.count_append, List.count_eq_zero_of_not_mem hnone, Nat.add_zero]

/-- The first record that begins has no slots yet. -/
lemma Grown.count_eq (h : Grown N O t l s t' new os s') (htells : Tells N t l s) :
    s'.owners.count s.texts.length = os.count s.texts.length := by
  have hnone : s.texts.length ∉ s.owners := fun hmem =>
    absurd (htells.owners_lt _ hmem) (lt_irrefl _)
  rw [h.owners, List.count_append, List.count_eq_zero_of_not_mem hnone, Nat.zero_add]

lemma fair_length (s : Chronicle τ) : Fair s.texts.length s := fun i hi hi' => by omega

lemma Fair.trans {n : ℕ} (h : Fair n s) (hgrown : Grown N O t l s t' new os s')
    (h' : Fair s.texts.length s') : Fair n s' := by
  intro i hi hi'
  rcases Nat.lt_or_ge i s.texts.length with hlt | hge
  · obtain ⟨text, htext, hlost⟩ := h i hi hlt
    refine ⟨text, getElem?_of_isPrefix hgrown.texts htext, ?_⟩
    rw [hgrown.lost i hlt, hgrown.count_of_lt hlt]
    exact hlost
  · exact h' i hge hi'

lemma Fair.congr {n : ℕ} (h : Fair n s) (htexts : s'.texts = s.texts) (hlost : s'.lost = s.lost)
    (howners : s'.owners = s.owners) : Fair n s' := by
  intro i hi hi'
  rw [htexts] at hi'
  obtain ⟨text, htext, hiff⟩ := h i hi hi'
  exact ⟨text, by rw [htexts]; exact htext, by rw [hlost, howners]; exact hiff⟩

/-- The record being written does not matter to those that began after it. -/
lemma Fair.write {n : ℕ} {w : Writer} {rw' : Ring × Writer} (h : Fair n s) (hn : s.current < n)
    (hgrew : s.ring.Grew rw'.1) (hcounted : Ring.Counted (s.ring, w) rw')
    (hlost : s.current ∈ s.lost ↔ w.truncated = true) : Fair n (s.put rw'.1) := by
  intro i hi hi'
  obtain ⟨text, htext, hiff⟩ := h i hi hi'
  have hne : i ≠ s.current := by omega
  refine ⟨text, htext, ?_⟩
  rw [(mem_put_lost hcounted hlost).2.1 i hne, put_owners hgrew, List.count_append,
    List.count_replicate, if_neg (by simpa using hne.symm), Nat.add_zero]
  exact hiff

end Chronicle

/-! ### The account beside the ring -/

structure Journal (τ : Type) extends Chronicle τ where
  account : Account := {}

namespace Journal

open Chronicle Noting

variable {τ : Type} {N t : ℕ} {s s' s'' : Journal τ} {l : List (Option (List UInt8))}
  {total text : List UInt8} {w : Writer}

def put (r : Ring) (s : Journal τ) : Journal τ where
  toChronicle := s.toChronicle.put r
  account := s.account.after s.current (s.toChronicle.put r).owners.length s.ring r

def hand (chunk : List UInt8) (s : Journal τ) : Journal τ where
  toChronicle := s.toChronicle.hand chunk
  account := s.account.hand chunk

def mark (s : Journal τ) : Journal τ := { s with toChronicle := s.toChronicle.mark }

def enter (text : List UInt8) (s : Journal τ) : Journal τ :=
  { s with toChronicle := s.toChronicle.enter text }

def ringCell : Cell (Journal τ) Ring := ⟨fun s => s.ring, put⟩

def fresh (N : ℕ) (rest : τ) : Journal τ := { toChronicle := Chronicle.fresh N rest }

lemma put_self (s : Journal τ) : s.put s.ring = s := by
  rw [put, Chronicle.put_self, Account.after_self]

instance : Noting (Journal τ) τ where
  ring := ringCell
  current := ⟨fun s => s.current, fun i s => { s with current := i }⟩
  rest := ⟨fun s => s.rest, fun a s => { s with rest := a }⟩
  hand := hand
  mark := mark
  enter := enter
  ring_put _ _ := rfl
  put_ring := put_self
  current_put _ _ := rfl
  current_mark _ := rfl
  current_rest _ _ := rfl
  rest_mark _ := rfl
  rest_enter _ _ := rfl

/-- The ring and the account agree, every record was cut short for want of a slot, and every
drain that is over is balanced. -/
structure Squares (N : ℕ) (s : Journal τ) : Prop where
  drained : s.account.drained = s.ring.tail.toNat
  cuts : s.account.cuts.length = s.ring.lost
  drain : s.account.drain.isSome = s.ring.draining
  past : ∀ d ∈ s.account.past, d.Balanced
  stray : s.account.stray = []
  full : ∀ c ∈ s.account.allCuts, c.reserved = c.drained + N
  records : s.account.allCuts.map Cut.record = s.lost

lemma squares_fresh (N : ℕ) (rest : τ) : Squares N (fresh N rest) :=
  ⟨rfl, rfl, rfl, nofun, rfl, nofun, rfl⟩

/-- The account is as it was, and of the rest only what it is compared with matters. -/
lemma Squares.congr (h : Squares N s) (haccount : s'.account = s.account)
    (htail : s'.ring.tail = s.ring.tail) (hcount : s'.ring.lost = s.ring.lost)
    (hdraining : s'.ring.draining = s.ring.draining) (hlost : s'.lost = s.lost) :
    Squares N s' := by
  obtain ⟨drained, cuts, drain, past, stray, full, records⟩ := h
  rw [← haccount] at drained cuts drain past stray full records
  exact ⟨by rw [htail]; exact drained, by rw [hcount]; exact cuts, by rw [hdraining]; exact drain,
    past, stray, full, by rw [hlost]; exact records⟩

/-- The drain that is going on has settled its account so far. -/
def Balanced (s : Journal τ) : Prop := ∃ d, s.account.drain = some d ∧ d.Balanced

/-- With a drain going on the sink may be handed something. -/
lemma Squares.hand (h : Squares N s) (hdraining : s.ring.draining = true) (chunk : List UInt8) :
    Squares N (s.hand chunk) := by
  obtain ⟨d, hd⟩ := Option.isSome_iff_exists.1 (h.drain.trans hdraining)
  have hring : (s.hand chunk).ring = s.ring := hand_ring chunk s.toChronicle
  have hlost : (s.hand chunk).lost = s.lost := hand_lost chunk s.toChronicle
  have hcuts := s.account.allCuts_hand chunk
  have haccount : (s.hand chunk).account = s.account.hand chunk := rfl
  rw [s.account.hand_eq hd] at hcuts haccount
  refine ⟨?_, ?_, ?_, ?_, ?_, ?_, ?_⟩
  · rw [haccount, hring]; exact h.drained
  · rw [haccount, hring]; exact h.cuts
  · rw [haccount, hring]; exact hdraining.symm
  · rw [haccount]; exact h.past
  · rw [haccount]; exact h.stray
  · rw [haccount, hcuts]; exact h.full
  · rw [haccount, hcuts, hlost]; exact h.records

/-! ### Complete stretches -/

/-- What holds in `s'` after `s`: the account squares with the ring, and a drain that was going on
has its account as it was. -/
structure Since (N : ℕ) (s s' : Journal τ) : Prop where
  squares : Squares N s'
  drain : s.ring.draining = true → s'.account.drain = s.account.drain
  fair : Fair s.texts.length s'.toChronicle

/-- From `s` to `s'` every record that began is done. -/
structure Reaches (N : ℕ) (s s' : Journal τ) : Prop extends
    noted : Chronicle.Reaches N s.toChronicle s'.toChronicle where
  since : s'.owners.length < 2 ^ 64 → ∀ t l, Tells N t l s.toChronicle → Squares N s → Since N s s'

/-- The account does not change. -/
lemma reaches_of_account_eq (h : Chronicle.Reaches N s.toChronicle s'.toChronicle)
    (haccount : s'.account = s.account) (hring : s'.ring = s.ring) (hlost : s'.lost = s.lost)
    (htexts : s'.texts = s.texts) : Reaches N s s' :=
  ⟨h, fun _ _ _ _ hs => ⟨hs.congr haccount (by rw [hring]) (by rw [hring]) (by rw [hring]) hlost,
    fun _ => by rw [haccount], by rw [← htexts]; exact fair_length _⟩⟩

lemma reaches_refl (s : Journal τ) : Reaches N s s :=
  reaches_of_account_eq (Chronicle.reaches_refl _) rfl rfl rfl rfl

lemma reaches_mark (s : Journal τ) : Reaches N s s.mark :=
  reaches_of_account_eq (Chronicle.reaches_mark _) rfl rfl rfl rfl

/-- Neither the number of the record being written nor what lies outside matters. -/
lemma reaches_with (s : Journal τ) (i : ℕ) (a : τ) :
    Reaches N s { s with current := i, rest := a } :=
  reaches_of_account_eq (Chronicle.reaches_with _ i a) rfl rfl rfl rfl

lemma Reaches.trans (h : Reaches N s s') (h' : Reaches N s' s'') : Reaches N s s'' := by
  refine ⟨h.noted.trans h'.noted, fun hbound t l htells hs => ?_⟩
  have hbound' := h'.owners_le.trans_lt hbound
  obtain ⟨t', d, os, hgrown, -⟩ := h.grown hbound' t l htells
  obtain ⟨t'', d', os', hgrown', -⟩ := h'.grown hbound t' _ hgrown.tells
  have h₁ := h.since hbound' t l htells hs
  have h₂ := h'.since hbound t' _ hgrown.tells h₁.squares
  exact ⟨h₂.squares, fun hd => (h₂.drain (h.draining.trans hd)).trans (h₁.drain hd),
    h₁.fair.trans hgrown' h₂.fair⟩

/-! ### Drains -/

/-- From `s` to `s'` a drain went on, at both ends with its account settled. -/
structure Drains (N : ℕ) (s s' : Journal τ) : Prop extends
    noted : Chronicle.Drains N s.toChronicle s'.toChronicle where
  since : s'.owners.length < 2 ^ 64 → ∀ l, s.ring.draining = true →
    Tells N s.sunk.length l s.toChronicle → Squares N s → Balanced s →
      Squares N s' ∧ Balanced s' ∧ Fair s.texts.length s'.toChronicle

instance : IsPreorder (Journal τ) (Drains N) where
  refl s := ⟨refl_of (Chronicle.Drains N) s.toChronicle,
    fun _ _ _ _ hs hb => ⟨hs, hb, fair_length _⟩⟩
  trans s s' s'' h h' := by
    refine ⟨trans_of (Chronicle.Drains N) h.noted h'.noted, fun hbound l hd htells hs hb => ?_⟩
    have hbound' := h'.owners_le.trans_lt hbound
    have hd' := h.draining.trans hd
    obtain ⟨d, os, hgrown⟩ := h.grown hbound' l hd htells
    obtain ⟨d', os', hgrown'⟩ := h'.grown hbound _ hd' hgrown.tells
    obtain ⟨hs', hb', hfair⟩ := h.since hbound' l hd htells hs hb
    obtain ⟨hs'', hb'', hfair'⟩ := h'.since hbound _ hd' hgrown.tells hs' hb'
    exact ⟨hs'', hb'', hfair.trans hgrown' hfair'⟩

/-- The slot at the tail is freed. -/
lemma Squares.pop (h : Squares N s) {b : List UInt8} (htells : Tells N t l s.toChronicle)
    (hb : l[t]? = some (some b)) : Squares N (s.put s.ring.pop) := by
  have hring : (s.put s.ring.pop).ring = s.ring.pop := rfl
  have hlost : (s.put s.ring.pop).lost = s.lost := put_lost_of_le le_rfl
  have haccount : (s.put s.ring.pop).account = s.account.free s.ring.front? :=
    s.account.after_pop
  refine ⟨?_, ?_, ?_, ?_, ?_, ?_, ?_⟩
  · rw [haccount, hring, (htells.holds.pop hb).toNat_tail, ← htells.holds.toNat_tail, ← h.drained]
    rfl
  · rw [haccount]; exact h.cuts
  · rw [haccount, Account.free, Option.isSome_map]; exact h.drain
  · rw [haccount]; exact h.past
  · rw [haccount]; exact h.stray
  · rw [haccount, Account.allCuts_free]; exact h.full
  · rw [haccount, Account.allCuts_free, hlost]; exact h.records

/-- One slot of a drain: its chunk is handed over, something may break in, and it is freed. -/
lemma drains_slot {b : List UInt8} (hfront : s.ring.front? = some b)
    (h : Reaches N (s.hand b).mark s') : Drains N s (s'.put s'.ring.pop) := by
  have hput : (s'.put s'.ring.pop).toChronicle = { s'.toChronicle with ring := s'.ring.pop } :=
    put_eq rfl rfl
  refine ⟨Chronicle.drains_slot hfront h.noted, fun hbound l hd htells hs hbal => ?_⟩
  rw [hput] at hbound
  have hd₁ : (s.hand b).mark.ring.draining = true :=
    (congrArg Ring.draining (hand_ring b s.toChronicle)).trans hd
  have htexts : (s.hand b).mark.texts = s.texts := hand_texts b s.toChronicle
  have hb : l[s.sunk.length]? = some (some b) := by
    rw [htells.holds.front?_eq] at hfront
    exact Option.join_eq_some_iff.1 hfront
  have htells₁ : Tells N s.sunk.length l (s.hand b).mark.toChronicle := (htells.hand hd rfl hb).mark
  obtain ⟨t', e, os, hgrown, hfrozen⟩ := h.grown hbound _ l htells₁
  obtain ⟨rfl, -⟩ := hfrozen hd₁
  have hs₁ : Squares N (s.hand b).mark := (hs.hand hd b).congr rfl rfl rfl rfl rfl
  have hsince := h.since hbound _ l htells₁ hs₁
  -- the chunk that was handed over is the one that is freed
  have hb' : (l ++ e.map some)[s.sunk.length]? = some (some b) := by
    rw [List.getElem?_append_left (List.getElem?_eq_some_iff.1 hb).1]
    exact hb
  have hfront' : s'.ring.front? = some b := by
    rw [hgrown.tells.holds.front?_eq, hb']
    rfl
  refine ⟨hsince.squares.pop hgrown.tells hb', ?_, ?_⟩
  · -- what was handed over is freed, and the drain is even again
    obtain ⟨d, hdrain, hbalanced⟩ := hbal
    have hhanded : s'.account.drain = some { d with handed := d.handed ++ [b] } := by
      rw [hsince.drain hd₁]
      exact congrArg Account.drain (s.account.hand_eq hdrain b)
    refine ⟨{ d with handed := d.handed ++ [b], freed := d.freed ++ [b] }, ?_, ?_⟩
    · show (s'.account.after _ _ s'.ring s'.ring.pop).drain = _
      rw [Account.after_pop, Account.free, hfront', hhanded]
      rfl
    · show d.handed ++ [b] = d.due ++ (d.freed ++ [b])
      rw [hbalanced, List.append_assoc]
  · rw [hput, ← htexts]
    exact hsince.fair.congr rfl rfl rfl

lemma opened_account (hidle : s.ring.draining = false) : (opened s).account = s.account.begin := by
  have hhold : (hold s).account = s.account.begin := s.account.after_begin hidle
  have htaken : (opened s).account = (hold s).account :=
    (hold s).account.after_forgetLost (r := (hold s).ring)
  exact htaken.trans hhold

/-- What was cut short so far is the concern of the drain that begins. -/
lemma squares_opened (h : Squares N s) (hidle : s.ring.draining = false) :
    Squares N (opened s) := by
  have hnone : s.account.drain = none := by
    rw [← Option.not_isSome_iff_eq_none, h.drain, hidle]
    exact Bool.false_ne_true
  have hhold : (hold s).lost = s.lost := put_lost_of_le le_rfl
  have hlost : (opened s).lost = s.lost :=
    (put_lost_of_le (s := (hold s).toChronicle) (Nat.zero_le _)).trans hhold
  have haccount := opened_account hidle
  refine ⟨?_, ?_, ?_, ?_, ?_, ?_, ?_⟩
  · rw [haccount]; exact h.drained
  · rw [haccount]; rfl
  · rw [haccount]; rfl
  · rw [haccount]; exact h.past
  · rw [haccount]; exact h.stray
  · rw [haccount, Account.allCuts_begin _ hnone]; exact h.full
  · rw [haccount, Account.allCuts_begin _ hnone, hlost]; exact h.records

/-- A drain lets go of the sink. -/
lemma Squares.finish (h : Squares N s) (hb : Balanced s) :
    Squares N (s.put { s.ring with draining := false }) := by
  obtain ⟨d, hd, hbalanced⟩ := hb
  have hdraining : s.ring.draining = true := by rw [← h.drain, hd]; rfl
  have hlost : (s.put { s.ring with draining := false }).lost = s.lost := put_lost_of_le le_rfl
  have haccount : (s.put { s.ring with draining := false }).account = s.account.finish :=
    s.account.after_finish hdraining
  refine ⟨?_, ?_, ?_, ?_, ?_, ?_, ?_⟩
  · rw [haccount]; exact h.drained
  · rw [haccount]; exact h.cuts
  · rw [haccount]; rfl
  · -- the drain that ends was even
    rw [haccount, Account.finish, hd]
    intro e he
    rcases List.mem_append.1 he with he | he
    · exact h.past e he
    · obtain rfl := List.mem_singleton.1 he
      exact hbalanced
  · rw [haccount]; exact h.stray
  · rw [haccount, Account.allCuts_finish]; exact h.full
  · rw [haccount, Account.allCuts_finish, hlost]; exact h.records

/-- A drain began in `s`, and in `s'` its account is settled so far. -/
structure Opened (N : ℕ) (s s' : Journal τ) : Prop extends
    noted : Chronicle.Drains N (hold s).toChronicle s'.toChronicle where
  since : s'.owners.length < 2 ^ 64 → ∀ l, Tells N s.sunk.length l s.toChronicle → Squares N s →
    Squares N s' ∧ Balanced s' ∧ Fair s.texts.length s'.toChronicle

lemma tells_hold (h : Tells N t l s.toChronicle) : Tells N t l (hold s).toChronicle :=
  h.withRing rfl rfl h.size (h.holds.congr rfl rfl rfl) nofun

/-- Nothing was cut short since the drain before began. -/
lemma opened_quiet (hidle : s.ring.draining = false) (hlost : s.ring.lost = 0) :
    Opened N s (opened s) := by
  have hsame : opened s = hold s := opened_eq_hold hlost
  refine ⟨by rw [hsame]; exact refl_of _ _, fun _ l htells hs => ⟨squares_opened hs hidle, ?_, ?_⟩⟩
  · have hcuts : s.account.cuts = [] := List.length_eq_zero_iff.1 (hs.cuts.trans hlost)
    refine ⟨{ cuts := s.account.cuts }, by rw [opened_account hidle]; rfl, ?_⟩
    rw [hcuts]
    rfl
  · rw [hsame]
    exact fair_length (hold s).toChronicle

/-- Something was cut short: the notice goes first. -/
lemma opened_notice (hidle : s.ring.draining = false) (hlost : 0 < s.ring.lost)
    (h : Reaches N ((opened s).hand (Text.utf8 lostNotice)).mark s') : Opened N s s' := by
  have hnotice : Chronicle.Reaches N (hold s).toChronicle
      ((opened s).hand (Text.utf8 lostNotice)).mark.toChronicle :=
    (reaches_notice (s := (hold s).toChronicle) hlost).trans (Chronicle.reaches_mark _)
  refine ⟨(hnotice.trans h.noted).drains, fun hbound l htells hs => ?_⟩
  obtain ⟨t, d, os, hgrown, -⟩ :=
    hnotice.grown (h.owners_le.trans_lt hbound) _ l (tells_hold htells)
  have hd : ((opened s).hand (Text.utf8 lostNotice)).mark.ring.draining = true :=
    congrArg Ring.draining (hand_ring _ (opened s).toChronicle)
  have hs₁ : Squares N ((opened s).hand (Text.utf8 lostNotice)).mark :=
    ((squares_opened hs hidle).hand rfl _).congr rfl rfl rfl rfl rfl
  have hsince := h.since hbound _ _ hgrown.tells hs₁
  have htexts : ((opened s).hand (Text.utf8 lostNotice)).mark.texts = s.texts :=
    hand_texts _ (opened s).toChronicle
  refine ⟨hsince.squares, ?_, by rw [← htexts]; exact hsince.fair⟩
  have hhanded : s'.account.drain =
      some { cuts := s.account.cuts, handed := [Text.utf8 lostNotice] } := by
    rw [hsince.drain hd]
    show ((opened s).account.hand _).drain = _
    rw [opened_account hidle]
    rfl
  refine ⟨_, hhanded, ?_⟩
  cases hcuts : s.account.cuts with
  | nil =>
    -- the count of lost records is the number of cuts
    have hcount := hs.cuts
    rw [hcuts, List.length_nil] at hcount
    omega
  | cons c rest => rfl

lemma Opened.drain (h : Opened N s s') (h' : Drains N s' s'') : Opened N s s'' := by
  refine ⟨trans_of (Chronicle.Drains N) h.noted h'.noted, fun hbound l htells hs => ?_⟩
  have hbound' := h'.owners_le.trans_lt hbound
  have hd : s'.ring.draining = true := h.draining
  obtain ⟨d, os, hgrown⟩ := h.grown hbound' l rfl (tells_hold htells)
  obtain ⟨d', os', hgrown'⟩ := h'.grown hbound _ hd hgrown.tells
  obtain ⟨hs', hb', hfair⟩ := h.since hbound' l htells hs
  obtain ⟨hs'', hb'', hfair'⟩ := h'.since hbound _ hd hgrown.tells hs' hb'
  exact ⟨hs'', hb'', hfair.trans hgrown' hfair'⟩

/-- A drain from beginning to end. -/
lemma Opened.reaches (h : Opened N s s') (hidle : s.ring.draining = false) :
    Reaches N s (s'.put { s'.ring with draining := false }) := by
  have hput : (s'.put { s'.ring with draining := false }).toChronicle =
      { s'.toChronicle with ring := { s'.ring with draining := false } } := put_eq rfl rfl
  refine ⟨reaches_drained hidle h.noted, fun hbound t l htells hs => ?_⟩
  rw [hput] at hbound
  obtain rfl := htells.sunk_length hidle
  obtain ⟨hs', hb, hfair⟩ := h.since hbound l htells hs
  refine ⟨hs'.finish hb, fun hd => absurd (hidle.symm.trans hd) Bool.false_ne_true, ?_⟩
  rw [hput]
  exact hfair.congr rfl rfl rfl

/-! ### A record in progress -/

/-- The record that began in `s` has written `text` so far of `total`, and is at `w`. -/
structure Midway (N : ℕ) (s : Journal τ) (total text : List UInt8) (w : Writer) (s' : Journal τ) :
    Prop extends noted : Chronicle.Midway N s.toChronicle total text w s'.toChronicle where
  since : s'.owners.length < 2 ^ 64 → ∀ t l, Tells N t l s.toChronicle → Squares N s →
    Squares N s' ∧ (s.ring.draining = true → s'.account.drain = s.account.drain) ∧
      Fair (s.texts.length + 1) s'.toChronicle ∧
      (w.truncated = true → slotLength * s'.owners.count s.texts.length < text.length)

lemma midway_enter (s : Journal τ) : Midway N s total [] {} (s.enter total) := by
  refine ⟨Chronicle.midway_enter s.toChronicle, fun _ t l _ hs =>
    ⟨hs.congr rfl rfl rfl rfl rfl, fun _ => rfl, ?_, nofun⟩⟩
  have hlength : (s.enter total).texts.length = s.texts.length + 1 := List.length_append
  rw [← hlength]
  exact fair_length _

/-- Something breaks in. -/
lemma Midway.reaches (h : Midway N s total text w s') (h' : Reaches N s' s'')
    (hcurrent : s''.current = s'.current) : Midway N s total text w s'' := by
  refine ⟨h.noted.reaches h'.noted hcurrent, fun hbound t l htells hs => ?_⟩
  have hbound' := h'.owners_le.trans_lt hbound
  obtain ⟨t', new, os, hgrown, -, htext, -, -⟩ := h.grown hbound' t l htells
  obtain ⟨t'', d, os', hgrown', -⟩ := h'.grown hbound t' _ hgrown.tells
  obtain ⟨hs', hdrain, hfair, hshort⟩ := h.since hbound' t l htells hs
  have h₂ := h'.since hbound t' _ hgrown.tells hs'
  refine ⟨h₂.squares, fun hd => (h₂.drain (h.draining.trans hd)).trans (hdrain hd),
    hfair.trans hgrown' h₂.fair, fun hw => ?_⟩
  rw [hgrown'.count_of_lt (List.getElem?_eq_some_iff.1 htext).1]
  exact hshort hw

/-- What a record does to the ring, and to the account when it is cut short by that. -/
lemma Squares.write {rw' : Ring × Writer} (h : Squares N s)
    (hcounted : Ring.Counted (s.ring, w) rw') (htail : rw'.1.tail = s.ring.tail)
    (hdraining : rw'.1.draining = s.ring.draining)
    (hfull : w.truncated = false → rw'.2.truncated = true →
      (s.toChronicle.put rw'.1).owners.length = s.ring.tail.toNat + N) :
    Squares N (s.put rw'.1) ∧ (s.put rw'.1).account.drain = s.account.drain := by
  have haccount : (s.put rw'.1).account = if s.ring.lost < rw'.1.lost then
      s.account.cut s.current (s.toChronicle.put rw'.1).owners.length else s.account :=
    s.account.after_of_tail_eq htail hdraining
  have hlost : (s.put rw'.1).lost =
    if s.ring.lost < rw'.1.lost then s.lost ++ [s.current] else s.lost := rfl
  rcases hcounted with ⟨hsame, -⟩ | ⟨hmore, hw, hw'⟩
  · -- the record goes on, or was cut short before
    rw [if_neg (by rw [hsame]; exact lt_irrefl _)] at haccount hlost
    exact ⟨h.congr haccount htail hsame hdraining hlost, by rw [haccount]⟩
  · -- the record is cut short here, in a full ring
    rw [if_pos (by rw [hmore]; exact Nat.lt_succ_self _)] at haccount hlost
    refine ⟨⟨?_, ?_, ?_, ?_, ?_, ?_, ?_⟩, by rw [haccount]; rfl⟩
    · rw [haccount]
      exact h.drained.trans (congrArg BitVec.toNat htail.symm)
    · rw [haccount, Account.cut, List.length_append, h.cuts]
      exact hmore.symm
    · rw [haccount]
      exact h.drain.trans hdraining.symm
    · rw [haccount]; exact h.past
    · rw [haccount]; exact h.stray
    · rw [haccount, Account.allCuts_cut]
      intro c hc
      rcases List.mem_append.1 hc with hc | hc
      · exact h.full c hc
      · obtain rfl := List.mem_singleton.1 hc
        dsimp only
        rw [hfull hw hw', h.drained]
    · rw [haccount, Account.allCuts_cut, List.map_append, h.records, hlost]
      rfl

/-- A piece of the text is written. -/
lemma Midway.write (h : Midway N s total text w s') (hN : N < 2 ^ 64) (bytes : List UInt8) :
    Midway N s total (text ++ bytes) (Ring.write (s'.ring, w) bytes).2
      (s'.put (Ring.write (s'.ring, w) bytes).1) := by
  have hnoted := h.noted.write hN bytes
  refine ⟨hnoted, fun hbound t l htells hs => ?_⟩
  have hbound' := (le_put_owners _ s'.toChronicle).trans_lt hbound
  obtain ⟨t', new, os, hgrown, hwrote, -, hlost, -⟩ := h.grown hbound' t l htells
  obtain ⟨t'', new', os', hgrown', -⟩ := hnoted.grown hbound t l htells
  obtain ⟨hs', hdrain, hfair, hshort⟩ := h.since hbound' t l htells hs
  have htells' := hgrown.tells
  have hgrew : s'.ring.Grew (Ring.write (s'.ring, w) bytes).1 :=
    Ring.write_grew (by rw [htells'.size]; exact hN)
  have howners : (s'.put (Ring.write (s'.ring, w) bytes).1).owners = s'.owners ++
      List.replicate ((Ring.write (s'.ring, w) bytes).1.used - s'.ring.used) s'.current :=
    put_owners hgrew
  have hcount := hbound
  rw [howners, List.length_append, List.length_replicate, htells'.owners_length] at hcount
  obtain ⟨_, hwent⟩ := hwrote.write htells'.holds htells'.size hN hcount
  have hstops := hwrote.write_stops htells'.holds htells'.size hN hcount
  have hfull : w.truncated = false → (Ring.write (s'.ring, w) bytes).2.truncated = true →
      (s'.toChronicle.put (Ring.write (s'.ring, w) bytes).1).owners.length =
        s'.ring.tail.toNat + N := by
    intro hw hw'
    rw [← hgrew.tail]
    exact hgrown'.tells.owners_length_of_full (hstops hw hw').1
  obtain ⟨hs'', hsame⟩ := hs'.write hwent.counted hgrew.tail Ring.write_draining hfull
  rw [← h.current] at hlost
  refine ⟨hs'', fun hd => hsame.trans (hdrain hd),
    hfair.write (by rw [h.current]; exact Nat.lt_succ_self _) hgrew hwent.counted hlost,
    fun hw' => ?_⟩
  cases hw : w.truncated with
  | true =>
    rw [Ring.write_of_truncated hw, put_self, List.length_append]
    exact (hshort hw).trans_le (Nat.le_add_right _ _)
  | false =>
    rw [howners, List.count_append, h.current, List.count_replicate_self, hgrown.count_eq htells]
    exact (hstops hw hw').2

/-- The record is over. -/
lemma Midway.publish (h : Midway N s total total w s') :
    Reaches N s (s'.put (s'.ring.publish w)) := by
  have hput : (s'.put (s'.ring.publish w)).toChronicle =
      { s'.toChronicle with ring := s'.ring.publish w } :=
    put_eq (Ring.publish_head _ w) (Ring.publish_lost _ w)
  have haccount : (s'.put (s'.ring.publish w)).account = s'.account := by
    show s'.account.after _ _ _ _ = _
    rw [Account.after_of_tail_eq _ (Ring.publish_tail _ w) (Ring.publish_draining _ w),
      Ring.publish_lost, if_neg (lt_irrefl _)]
  refine ⟨h.noted.publish, fun hbound t l htells hs => ?_⟩
  rw [hput] at hbound
  obtain ⟨t', new, os, hgrown, hwrote, htext, hlost, -⟩ := h.grown hbound t l htells
  obtain ⟨hs', hdrain, hfair, hshort⟩ := h.since hbound t l htells hs
  refine ⟨hs'.congr haccount (Ring.publish_tail _ w) (Ring.publish_lost _ w)
    (Ring.publish_draining _ w) (by rw [hput]), fun hd => by rw [haccount, hdrain hd], ?_⟩
  rw [hput]
  have hfair' : Fair s.texts.length s'.toChronicle := by
    intro i hi hi'
    rcases Nat.eq_or_lt_of_le hi with rfl | hlt
    · -- the record itself: it is cut short exactly if it lacks slots
      refine ⟨total, htext, hlost.trans ⟨hshort, fun hlt => ?_⟩⟩
      by_contra hw
      rw [hgrown.count_eq htells] at hlt
      have hle := hwrote.length_le (Bool.not_eq_true _ ▸ hw)
      omega
    · exact hfair i hlt hi'
  exact hfair'.congr rfl rfl rfl

end Journal

end BoardSupport.Log
