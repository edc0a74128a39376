import BoardSupport.Proofs.LogCalls
import BoardSupport.Proofs.LogRecord

/-!
A history kept beside the log ring.

A `Chronicle` is a state of which the ring is a part. Whatever is done to the ring it notes down:
which record reserved each position, which records were counted as lost, what went to the sink.
`Tells` says that the ring and the history agree, and `Grown` what happened between two states.
-/

namespace BoardSupport.Log

/-- The ring, the history of what was done to it, and a state `τ` of everything else. -/
structure Chronicle (τ : Type) where
  ring : Ring
  /-- The text of each record, in the order in which the records began. -/
  texts : List (List UInt8) := []
  /-- The record being written, by its place in `texts`. -/
  current : ℕ := 0
  /-- The record that reserved each position. -/
  owners : List ℕ := []
  /-- The records that were counted as lost. -/
  lost : List ℕ := []
  /-- The count of lost records was taken, and the notice is the next thing for the sink. -/
  noticeDue : Bool := false
  notices : List (List UInt8) := []
  /-- What was handed to the sink, notices aside. -/
  sunk : List (List UInt8) := []
  /-- The ring at the points at which something may break in. -/
  points : List Ring := []
  rest : τ

namespace Chronicle

variable {τ : Type}

/-- Write the ring. Positions reserved by that, or a record counted as lost, belong to the record
being written. -/
def put (r : Ring) (s : Chronicle τ) : Chronicle τ :=
  { s with
    ring := r
    owners := s.owners ++ List.replicate (r.head - s.ring.head).toNat s.current
    lost := if s.ring.lost < r.lost then s.lost ++ [s.current] else s.lost
    noticeDue := s.noticeDue || decide (r.lost < s.ring.lost) }

/-- The sink is handed a chunk. -/
def hand (chunk : List UInt8) (s : Chronicle τ) : Chronicle τ :=
  if s.noticeDue then { s with noticeDue := false, notices := s.notices ++ [chunk] }
  else { s with sunk := s.sunk ++ [chunk] }

/-- Something may break in here. -/
def mark (s : Chronicle τ) : Chronicle τ := { s with points := s.points ++ [s.ring] }

/-- A record begins. -/
def enter (text : List UInt8) (s : Chronicle τ) : Chronicle τ :=
  { s with texts := s.texts ++ [text], current := s.texts.length }

def ringCell : Cell (Chronicle τ) Ring := ⟨ring, put⟩

def fresh (N : ℕ) (rest : τ) : Chronicle τ := { ring := Ring.new N, rest }

variable {N t t' t'' : ℕ} {s s' s'' : Chronicle τ} {l new new' : List (Option (List UInt8))}
  {os os' : List ℕ} {total text : List UInt8} {w : Writer} {r : Ring}

/-- Only reservations, losses and notices are noted. -/
lemma put_eq (hhead : r.head = s.ring.head) (hlost : r.lost = s.ring.lost) :
    s.put r = { s with ring := r } := by
  simp [put, hhead, hlost]

/-- A record is lost only when the count goes up. -/
lemma put_lost_of_le (h : r.lost ≤ s.ring.lost) : (s.put r).lost = s.lost := if_neg h.not_gt

lemma put_self (s : Chronicle τ) : s.put s.ring = s := put_eq rfl rfl

instance : Noting (Chronicle τ) τ where
  ring := ringCell
  current := ⟨current, fun i s => { s with current := i }⟩
  rest := ⟨rest, fun a s => { s with rest := a }⟩
  hand := hand
  mark := mark
  enter := enter
  ring_put _ _ := rfl
  put_ring := put_self
  current_put _ _ := rfl
  current_mark _ := rfl
  current_rest _ _ := rfl
  rest_mark _ := rfl
  rest_enter _ _ := rfl

@[simp] lemma hand_ring (b : List UInt8) (s : Chronicle τ) : (s.hand b).ring = s.ring := by
  unfold hand; split <;> rfl
@[simp] lemma hand_owners (b : List UInt8) (s : Chronicle τ) : (s.hand b).owners = s.owners := by
  unfold hand; split <;> rfl
@[simp] lemma hand_texts (b : List UInt8) (s : Chronicle τ) : (s.hand b).texts = s.texts := by
  unfold hand; split <;> rfl
@[simp] lemma hand_lost (b : List UInt8) (s : Chronicle τ) : (s.hand b).lost = s.lost := by
  unfold hand; split <;> rfl

lemma le_put_owners (r : Ring) (s : Chronicle τ) : s.owners.length ≤ (s.put r).owners.length := by
  simp [put]

/-! ### The ring and its history agree -/

/-- The positions reserved so far hold the chunks `l`, and the next to drain is `t`. What the sink
was handed comes first among them, and that is up to `t` unless a drain is going on. -/
structure Tells (N t : ℕ) (l : List (Option (List UInt8))) (s : Chronicle τ) : Prop where
  size : s.ring.size = N
  holds : s.ring.Holds t l
  owners_length : s.owners.length = l.length
  owners_lt : ∀ i ∈ s.owners, i < s.texts.length
  lost_lt : ∀ i ∈ s.lost, i < s.texts.length
  sunk : Ring.Settles (s.sunk.map some) l
  sunk_length : s.ring.draining = false → s.sunk.length = t
  due : s.noticeDue = false
  notices : ∀ n ∈ s.notices, n = Text.utf8 lostNotice
  points : ∀ r ∈ s.points, r.Sound N

lemma tells_fresh (N : ℕ) (rest : τ) : Tells N 0 [] (fresh N rest) where
  size := by simp [fresh, Ring.new, Ring.size]
  holds := Ring.holds_new N
  owners_length := rfl
  owners_lt := by simp [fresh]
  lost_lt := by simp [fresh]
  sunk := fun p b hb => by simp [fresh] at hb
  sunk_length := fun _ => rfl
  due := rfl
  notices := by simp [fresh]
  points := by simp [fresh]

lemma Tells.sound (h : Tells N t l s) : s.ring.Sound N := h.holds.sound h.size

lemma Tells.mark (h : Tells N t l s) : Tells N t l s.mark := by
  refine ⟨h.size, h.holds, h.owners_length, h.owners_lt, h.lost_lt, h.sunk, h.sunk_length, h.due,
    h.notices, fun r hr => ?_⟩
  rcases List.mem_append.1 hr with hr | hr
  · exact h.points r hr
  · obtain rfl := List.mem_singleton.1 hr
    exact h.sound

/-- A change of the ring alone. -/
lemma Tells.withRing (h : Tells N t l s) (hhead : r.head = s.ring.head)
    (hlost : r.lost = s.ring.lost) (hsize : r.size = N) (hholds : r.Holds t' l)
    (hsunk : r.draining = false → s.sunk.length = t') : Tells N t' l (s.put r) := by
  rw [put_eq hhead hlost]
  exact ⟨hsize, hholds, h.owners_length, h.owners_lt, h.lost_lt, h.sunk, hsunk, h.due, h.notices,
    h.points⟩

/-- Without a drain the sink has got all that was drained. -/
lemma Tells.sunk_eq {d : List (List UInt8)} (h : Tells N t (d.map some) s)
    (hidle : s.ring.draining = false) : s.sunk = d.take t := by
  have hlength := h.sunk_length hidle
  refine List.ext_getElem? fun p => ?_
  rcases Nat.lt_or_ge p t with hp | hp
  · have hchunk := h.sunk p s.sunk[p] (by simp)
    rw [List.getElem?_map, Option.map_eq_some_iff] at hchunk
    obtain ⟨b, hb, hsame⟩ := hchunk
    cases hsame
    rw [List.getElem?_take_of_lt hp, hb, List.getElem?_eq_getElem]
  · rw [List.getElem?_eq_none (by omega), List.getElem?_eq_none (by simp; omega)]

/-- The chunk at the tail goes to the sink. -/
lemma Tells.hand (h : Tells N t l s) (hdraining : s.ring.draining = true)
    (hlength : s.sunk.length = t) {b : List UInt8} (hb : l[t]? = some (some b)) :
    Tells N t l (s.hand b) := by
  have hhand : s.hand b = { s with sunk := s.sunk ++ [b] } := by
    simp [Chronicle.hand, h.due]
  rw [hhand]
  refine ⟨h.size, h.holds, h.owners_length, h.owners_lt, h.lost_lt, fun p f hf => ?_,
    fun hidle => ?_, h.due, h.notices, h.points⟩
  · -- the chunks handed over are the first ones of the log
    rw [List.map_append, List.getElem?_append] at hf
    split at hf
    · exact h.sunk p f hf
    · next hp =>
      rw [List.length_map] at hp hf
      obtain rfl : p = t := by
        have hlt := (List.getElem?_eq_some_iff.1 hf).1
        simp only [List.map_cons, List.map_nil, List.length_singleton] at hlt
        omega
      rw [hlength, Nat.sub_self] at hf
      cases hf
      exact hb
  · rw [hdraining] at hidle
    cases hidle

/-! ### What happened since -/

/-- The chunks of a record are its text, or when it was counted as lost the part of it that filled
whole slots. -/
structure Whole (lost : Prop) (chunks : List (List UInt8)) (text : List UInt8) : Prop where
  all : ¬ lost → chunks.flatten = text
  part : lost → chunks.flatten <+: text ∧ 120 ∣ chunks.flatten.length

/-- The positions `new`, reserved by the records `os`, keep the text of record `i`. -/
def Kept (s : Chronicle τ) (i : ℕ) (new : List (Option (List UInt8))) (os : List ℕ) : Prop :=
  ∃ d text, own i new os = d.map some ∧ s.texts[i]? = some text ∧ Whole (i ∈ s.lost) d text

lemma getElem?_of_isPrefix {α : Type} {l l' : List α} (h : l <+: l') {i : ℕ} {a : α}
    (ha : l[i]? = some a) : l'[i]? = some a := by
  obtain ⟨more, rfl⟩ := h
  rw [List.getElem?_append_left (List.getElem?_eq_some_iff.1 ha).1]
  exact ha

lemma Kept.congr {i : ℕ} (h : Kept s i new os) (hown : own i new' os' = own i new os)
    (htexts : s.texts <+: s'.texts) (hlost : i ∈ s'.lost ↔ i ∈ s.lost) : Kept s' i new' os' := by
  obtain ⟨d, text, hd, htext, hwhole⟩ := h
  exact ⟨d, text, hown.trans hd, getElem?_of_isPrefix htexts htext, by rwa [hlost]⟩

/-- Between `s` and `s'` the records `os` reserved the positions `new`. They all began after `s`,
and their text is kept, except for the record `O` that is still being written. -/
structure Grown (N : ℕ) (O : Option ℕ) (t : ℕ) (l : List (Option (List UInt8))) (s : Chronicle τ)
    (t' : ℕ) (new : List (Option (List UInt8))) (os : List ℕ) (s' : Chronicle τ) : Prop where
  tells : Tells N t' (l ++ new) s'
  length_eq : new.length = os.length
  owners : s'.owners = s.owners ++ os
  began : ∀ i ∈ os, s.texts.length ≤ i
  texts : s.texts <+: s'.texts
  lost : ∀ i < s.texts.length, (i ∈ s'.lost ↔ i ∈ s.lost)
  kept : ∀ i, s.texts.length ≤ i → i < s'.texts.length → some i ≠ O → Kept s' i new os

/-- Nothing was reserved. -/
lemma Tells.grown (h : Tells N t' l s') (howners : s'.owners = s.owners)
    (htexts : s'.texts = s.texts) (hlost : s'.lost = s.lost) {O : Option ℕ} :
    Grown N O t l s t' [] [] s' where
  tells := by rwa [List.append_nil]
  length_eq := rfl
  owners := by rw [howners, List.append_nil]
  began := nofun
  texts := by rw [htexts]
  lost := fun _ _ => by rw [hlost]
  kept := fun i hi hi' => by rw [htexts] at hi'; omega

lemma Grown.trans {O : Option ℕ} (h : Grown N O t l s t' new os s')
    (h' : Grown N none t' (l ++ new) s' t'' new' os' s'') :
    Grown N O t l s t'' (new ++ new') (os ++ os') s'' where
  tells := by rw [← List.append_assoc]; exact h'.tells
  length_eq := by rw [List.length_append, List.length_append, h.length_eq, h'.length_eq]
  owners := by rw [h'.owners, h.owners, List.append_assoc]
  began := by
    have hle := h.texts.length_le
    intro i hi
    rcases List.mem_append.1 hi with hi | hi
    · exact h.began i hi
    · exact hle.trans (h'.began i hi)
  texts := h.texts.trans h'.texts
  lost := by
    have hle := h.texts.length_le
    intro i hi
    rw [h'.lost i (by omega), h.lost i hi]
  kept := by
    intro i hi hi' hO
    rcases Nat.lt_or_ge i s'.texts.length with hlt | hge
    · -- a record of the first stretch reserves nothing in the second
      have hnone : i ∉ os' := fun hmem => by have := h'.began i hmem; omega
      refine (h.kept i hi hlt hO).congr ?_ h'.texts (h'.lost i hlt)
      rw [own_append h.length_eq, own_eq_nil hnone, List.append_nil]
    · -- a record of the second stretch has reserved nothing in the first
      have hnone : i ∉ os := fun hmem => by
        have := h.tells.owners_lt i (by rw [h.owners]; exact List.mem_append_right _ hmem)
        omega
      refine (h'.kept i hge hi' (by simp)).congr ?_ List.prefix_rfl Iff.rfl
      rw [own_append h.length_eq, own_eq_nil hnone, List.nil_append]

/-- At the start only these parts of the history matter. -/
lemma Grown.start_eq {O : Option ℕ} (h : Grown N O t l s' t' new os s'')
    (howners : s'.owners = s.owners) (htexts : s'.texts = s.texts) (hlost : s'.lost = s.lost) :
    Grown N O t l s t' new os s'' := by
  obtain ⟨tells, length_eq, owners, began, texts, lost, kept⟩ := h
  rw [howners] at owners
  rw [htexts] at began texts lost kept
  rw [hlost] at lost
  exact ⟨tells, length_eq, owners, began, texts, lost, kept⟩

/-- At the end nothing more is reserved. -/
lemma Grown.end_eq {O : Option ℕ} (h : Grown N O t l s t' new os s')
    (htells : Tells N t'' (l ++ new) s'') (howners : s''.owners = s'.owners)
    (htexts : s''.texts = s'.texts) (hlost : s''.lost = s'.lost) :
    Grown N O t l s t'' new os s'' := by
  have hgrown := h.trans (htells.grown howners htexts hlost)
  rwa [List.append_nil, List.append_nil] at hgrown

/-! ### Complete stretches -/

/-- From `s` to `s'` every record that began is done. With a drain going on in `s` nothing was
drained. -/
structure Reaches (N : ℕ) (s s' : Chronicle τ) : Prop where
  owners_le : s.owners.length ≤ s'.owners.length
  draining : s'.ring.draining = s.ring.draining
  grown : s'.owners.length < 2 ^ 64 → ∀ t l, Tells N t l s →
    ∃ (t' : ℕ) (d : List (List UInt8)) (os : List ℕ), Grown N none t l s t' (d.map some) os s' ∧
      (s.ring.draining = true → t' = t ∧ s'.sunk = s.sunk)

/-- The history goes on without reservations. -/
lemma reaches_of_tells (hdraining : s'.ring.draining = s.ring.draining)
    (howners : s'.owners = s.owners) (htexts : s'.texts = s.texts) (hlost : s'.lost = s.lost)
    (hsunk : s'.sunk = s.sunk) (htells : ∀ t l, Tells N t l s → Tells N t l s') :
    Reaches N s s' :=
  ⟨by rw [howners], hdraining, fun _ t l h =>
    ⟨t, [], [], (htells t l h).grown howners htexts hlost, fun _ => ⟨rfl, hsunk⟩⟩⟩

lemma reaches_refl (s : Chronicle τ) : Reaches N s s :=
  reaches_of_tells rfl rfl rfl rfl rfl fun _ _ h => h

lemma reaches_mark (s : Chronicle τ) : Reaches N s s.mark :=
  reaches_of_tells rfl rfl rfl rfl rfl fun _ _ h => h.mark

/-- Neither the number of the record being written nor what lies outside matters. -/
lemma reaches_with (s : Chronicle τ) (i : ℕ) (a : τ) :
    Reaches N s { s with current := i, rest := a } :=
  reaches_of_tells rfl rfl rfl rfl rfl fun _ _ h =>
    ⟨h.size, h.holds, h.owners_length, h.owners_lt, h.lost_lt, h.sunk, h.sunk_length, h.due,
      h.notices, h.points⟩

lemma Reaches.trans (h : Reaches N s s') (h' : Reaches N s' s'') : Reaches N s s'' := by
  refine ⟨h.owners_le.trans h'.owners_le, h'.draining.trans h.draining, fun hbound t l htells => ?_⟩
  obtain ⟨t', d, os, hgrown, hfrozen⟩ := h.grown (h'.owners_le.trans_lt hbound) t l htells
  obtain ⟨t'', d', os', hgrown', hfrozen'⟩ := h'.grown hbound t' _ hgrown.tells
  refine ⟨t'', d ++ d', os ++ os', by rw [List.map_append]; exact hgrown.trans hgrown', ?_⟩
  intro hd
  obtain ⟨ht, hs⟩ := hfrozen hd
  obtain ⟨ht', hs'⟩ := hfrozen' (h.draining.trans hd)
  exact ⟨ht'.trans ht, hs'.trans hs⟩

/-- From `s` to `s'` a drain went on, at both ends with nothing in the hands of the sink. -/
structure Drains (N : ℕ) (s s' : Chronicle τ) : Prop where
  owners_le : s.owners.length ≤ s'.owners.length
  draining : s'.ring.draining = s.ring.draining
  grown : s'.owners.length < 2 ^ 64 → ∀ l, s.ring.draining = true → Tells N s.sunk.length l s →
    ∃ (d : List (List UInt8)) (os : List ℕ),
      Grown N none s.sunk.length l s s'.sunk.length (d.map some) os s'

instance : IsPreorder (Chronicle τ) (Drains N) where
  refl s := ⟨le_rfl, rfl, fun _ _ _ h => ⟨[], [], h.grown rfl rfl rfl⟩⟩
  trans s s' s'' h h' := by
    refine ⟨h.owners_le.trans h'.owners_le, h'.draining.trans h.draining,
      fun hbound l hd htells => ?_⟩
    obtain ⟨d, os, hgrown⟩ := h.grown (h'.owners_le.trans_lt hbound) l hd htells
    obtain ⟨d', os', hgrown'⟩ := h'.grown hbound _ (h.draining.trans hd) hgrown.tells
    exact ⟨d ++ d', os ++ os', by rw [List.map_append]; exact hgrown.trans hgrown'⟩

/-- With a drain going on, what breaks in is part of the drain. -/
lemma Reaches.drains (h : Reaches N s s') : Drains N s s' := by
  refine ⟨h.owners_le, h.draining, fun hbound l hd htells => ?_⟩
  obtain ⟨t', d, os, hgrown, hfrozen⟩ := h.grown hbound _ l htells
  obtain ⟨rfl, hsunk⟩ := hfrozen hd
  exact ⟨d, os, by rw [hsunk]; exact hgrown⟩

/-- One slot of a drain: its chunk is handed over, something may break in, and it is freed. -/
lemma drains_slot {b : List UInt8} (hfront : s.ring.front? = some b)
    (h : Reaches N (s.hand b).mark s') : Drains N s (s'.put s'.ring.pop) := by
  have hpop : s'.put s'.ring.pop = { s' with ring := s'.ring.pop } := put_eq rfl rfl
  have hsame : (s.hand b).mark.ring.draining = s.ring.draining := by simp [mark]
  have howners : (s.hand b).mark.owners = s.owners := by simp [mark]
  refine ⟨?_, ?_, fun hbound l hd htells => ?_⟩
  · rw [hpop, ← howners]
    exact h.owners_le
  · rw [hpop, ← hsame]
    exact h.draining
  rw [hpop] at hbound
  have hb : l[s.sunk.length]? = some (some b) := by
    rw [htells.holds.front?_eq] at hfront
    exact Option.join_eq_some_iff.1 hfront
  have hhand : s.hand b = { s with sunk := s.sunk ++ [b] } := by
    simp [hand, htells.due]
  have hstart : Tells N s.sunk.length l (s.hand b).mark := (htells.hand hd rfl hb).mark
  obtain ⟨t', d, os, hgrown, hfrozen⟩ := h.grown hbound _ l hstart
  -- a call made while the chunk is taken hands nothing over itself
  obtain ⟨rfl, hsunk⟩ := hfrozen (hsame.trans hd)
  have hlength : s'.sunk.length = s.sunk.length + 1 := by
    rw [hsunk, hhand]
    simp [mark]
  -- the chunk at the tail is still the one that was handed over
  have hb' : (l ++ d.map some)[s.sunk.length]? = some (some b) := by
    rw [List.getElem?_append_left (List.getElem?_eq_some_iff.1 hb).1]
    exact hb
  have htells' : Tells N s'.sunk.length (l ++ d.map some) (s'.put s'.ring.pop) := by
    refine hgrown.tells.withRing rfl rfl ?_ ?_ fun _ => rfl
    · exact (Ring.setSlot_size _ _ _).trans hgrown.tells.size
    · rw [hlength]
      exact hgrown.tells.holds.pop hb'
  refine ⟨d, os, ?_⟩
  have hgrown' := hgrown.start_eq (s := s) howners (hand_texts b s) (hand_lost b s)
  exact hgrown'.end_eq htells' (by rw [hpop]) (by rw [hpop]) (by rw [hpop])

/-- The count of lost records is taken, and the sink is handed the notice. -/
lemma reaches_notice (hlost : 0 < s.ring.lost) :
    Reaches N s ((s.put s.ring.forgetLost).hand (Text.utf8 lostNotice)) := by
  have hhand : (s.put s.ring.forgetLost).hand (Text.utf8 lostNotice) =
      { s with
        ring := s.ring.forgetLost
        noticeDue := false
        notices := s.notices ++ [Text.utf8 lostNotice] } := by
    simp [hand, put, Ring.forgetLost, hlost]
  rw [hhand]
  refine reaches_of_tells rfl rfl rfl rfl rfl fun t l h => ?_
  refine ⟨h.size, h.holds.congr rfl rfl rfl, h.owners_length, h.owners_lt, h.lost_lt, h.sunk,
    h.sunk_length, rfl, fun n hn => ?_, h.points⟩
  rcases List.mem_append.1 hn with hn | hn
  · exact h.notices n hn
  · exact List.mem_singleton.1 hn

/-- A drain from beginning to end. -/
lemma reaches_drained (hidle : s.ring.draining = false)
    (h : Drains N (s.put { s.ring with draining := true }) s') :
    Reaches N s (s'.put { s'.ring with draining := false }) := by
  have hbegin : s.put { s.ring with draining := true } =
      { s with ring := { s.ring with draining := true } } := put_eq rfl rfl
  have hend : s'.put { s'.ring with draining := false } =
      { s' with ring := { s'.ring with draining := false } } := put_eq rfl rfl
  refine ⟨(le_put_owners _ s).trans (h.owners_le.trans (le_put_owners _ s')), hidle.symm, ?_⟩
  intro hbound t l htells
  obtain rfl := htells.sunk_length hidle
  have hstart : Tells N s.sunk.length l (s.put { s.ring with draining := true }) :=
    htells.withRing rfl rfl htells.size (htells.holds.congr rfl rfl rfl) nofun
  obtain ⟨d, os, hgrown⟩ := h.grown ((le_put_owners _ s').trans_lt hbound) l rfl hstart
  have hstop : Tells N s'.sunk.length (l ++ d.map some)
      (s'.put { s'.ring with draining := false }) :=
    hgrown.tells.withRing rfl rfl hgrown.tells.size (hgrown.tells.holds.congr rfl rfl rfl)
      fun _ => rfl
  have hgrown' := hgrown.start_eq (s := s) (by rw [hbegin]) (by rw [hbegin]) (by rw [hbegin])
  refine ⟨_, d, os, hgrown'.end_eq hstop (by rw [hend]) (by rw [hend]) (by rw [hend]), ?_⟩
  rw [hidle]
  exact nofun

/-! ### A record in progress -/

/-- The record that began in `s` has written `text` so far of `total`, and is at `w`. -/
structure Midway (N : ℕ) (s : Chronicle τ) (total text : List UInt8) (w : Writer)
    (s' : Chronicle τ) : Prop where
  owners_le : s.owners.length ≤ s'.owners.length
  draining : s'.ring.draining = s.ring.draining
  current : s'.current = s.texts.length
  grown : s'.owners.length < 2 ^ 64 → ∀ t l, Tells N t l s →
    ∃ (t' : ℕ) (new : List (Option (List UInt8))) (os : List ℕ),
      Grown N (some s.texts.length) t l s t' new os s' ∧
      Ring.Wrote N s.texts.length l.length text w new os ∧
      s'.texts[s.texts.length]? = some total ∧
      (s.texts.length ∈ s'.lost ↔ w.truncated = true) ∧
      (s.ring.draining = true → t' = t ∧ s'.sunk = s.sunk)

lemma midway_enter (s : Chronicle τ) : Midway N s total [] {} (s.enter total) := by
  refine ⟨le_rfl, rfl, rfl, fun _ t l h => ⟨t, [], [], ?_, ?_, by simp [enter], ?_,
    fun _ => ⟨rfl, rfl⟩⟩⟩
  · have hlen : (s.enter total).texts.length = s.texts.length + 1 := by simp [enter]
    refine ⟨?_, rfl, by simp [enter], nofun, by simp [enter], fun _ _ => Iff.rfl, ?_⟩
    · rw [List.append_nil]
      refine ⟨h.size, h.holds, h.owners_length, fun i hi => ?_, fun i hi => ?_, h.sunk,
        h.sunk_length, h.due, h.notices, h.points⟩
      · have := h.owners_lt i hi
        omega
      · have := h.lost_lt i hi
        omega
    · -- the only record to begin here is the one on its way
      intro i hi hi' hne
      exact absurd (congrArg some (show i = s.texts.length by omega)) hne
  · exact .start (a := []) rfl List.not_mem_nil
  · have hnew : s.texts.length ∉ s.lost := fun hmem => absurd (h.lost_lt _ hmem) (by omega)
    simpa [enter] using hnew

/-- Something breaks in. -/
lemma Midway.reaches (h : Midway N s total text w s') (h' : Reaches N s' s'')
    (hcurrent : s''.current = s'.current) : Midway N s total text w s'' := by
  refine ⟨h.owners_le.trans h'.owners_le, h'.draining.trans h.draining,
    hcurrent.trans h.current, fun hbound t l htells => ?_⟩
  obtain ⟨t', new, os, hgrown, hwrote, htext, hlost, hfrozen⟩ :=
    h.grown (h'.owners_le.trans_lt hbound) t l htells
  obtain ⟨t'', d, os', hgrown', hfrozen'⟩ := h'.grown hbound t' _ hgrown.tells
  have hi : s.texts.length < s'.texts.length := (List.getElem?_eq_some_iff.1 htext).1
  refine ⟨t'', new ++ d.map some, os ++ os', hgrown.trans hgrown', ?_,
    getElem?_of_isPrefix hgrown'.texts htext, (hgrown'.lost _ hi).trans hlost, fun hd => ?_⟩
  · refine hwrote.append (by simpa using hgrown'.length_eq) fun hmem => ?_
    have := hgrown'.began _ hmem
    omega
  · obtain ⟨ht, hs⟩ := hfrozen hd
    obtain ⟨ht', hs'⟩ := hfrozen' (h.draining.trans hd)
    exact ⟨ht'.trans ht, hs'.trans hs⟩

/-- A record that stops short is noted as lost, and no other. -/
lemma mem_put_lost {rw' : Ring × Writer} (hcounted : Ring.Counted (s.ring, w) rw')
    (hlost : s.current ∈ s.lost ↔ w.truncated = true) :
    (s.current ∈ (s.put rw'.1).lost ↔ rw'.2.truncated = true) ∧
      (∀ i ≠ s.current, i ∈ (s.put rw'.1).lost ↔ i ∈ s.lost) ∧
      (s.put rw'.1).noticeDue = s.noticeDue := by
  rcases hcounted with ⟨hsame, htrunc⟩ | ⟨hmore, -, htrunc⟩
  · dsimp only at hsame htrunc
    simp [put, hsame, htrunc, hlost]
  · dsimp only at hmore
    simp +contextual [put, hmore, htrunc]

lemma put_owners (h : s.ring.Grew r) :
    (s.put r).owners = s.owners ++ List.replicate (r.used - s.ring.used) s.current := by
  rw [← h.toNat_sub_head]
  rfl

/-- The record being written goes on. -/
lemma Tells.write {rw' : Ring × Writer} (h : Tells N t (l ++ new) s)
    (hcurrent : s.current < s.texts.length) (hlength : new.length = os.length)
    (hlost : s.current ∈ s.lost ↔ w.truncated = true) (hgrew : s.ring.Grew rw'.1)
    (hdraining : rw'.1.draining = s.ring.draining)
    (hwent : Ring.WentOn N s.current t l new os text (s.ring, w) rw' new') :
    Tells N t (l ++ new') (s.put rw'.1) := by
  obtain ⟨-, hothers, hdue⟩ := mem_put_lost hwent.counted hlost
  refine ⟨hgrew.size.trans h.size, hwent.holds, ?_, fun i hmem => ?_, fun i hmem => ?_,
    fun p b hb => hwent.settles.append_left l p b (h.sunk p b hb), fun hidle => ?_,
    hdue.trans h.due, h.notices, h.points⟩
  · have hlen := h.owners_length
    have hlen' := hwent.wrote.length_eq
    rw [put_owners hgrew]
    simp only [List.length_append, List.length_replicate] at hlen hlen' ⊢
    omega
  · rw [put_owners hgrew] at hmem
    rcases List.mem_append.1 hmem with hmem | hmem
    · exact h.owners_lt i hmem
    · rw [List.eq_of_mem_replicate hmem]
      exact hcurrent
  · by_cases hne : i = s.current
    · rw [hne]
      exact hcurrent
    · exact h.lost_lt i ((hothers i hne).1 hmem)
  · exact h.sunk_length (hdraining.symm.trans hidle)

/-- A piece of the text is written. -/
lemma Midway.write (h : Midway N s total text w s') (hN : N < 2 ^ 64) (bytes : List UInt8) :
    Midway N s total (text ++ bytes) (Ring.write (s'.ring, w) bytes).2
      (s'.put (Ring.write (s'.ring, w) bytes).1) := by
  refine ⟨h.owners_le.trans (le_put_owners _ s'), Ring.write_draining.trans h.draining, h.current,
    fun hbound t l htells => ?_⟩
  obtain ⟨t', new, os, hgrown, hwrote, htext, hlost, hfrozen⟩ :=
    h.grown ((le_put_owners _ s').trans_lt hbound) t l htells
  have hi : s.texts.length < s'.texts.length := (List.getElem?_eq_some_iff.1 htext).1
  have htells' := hgrown.tells
  have hgrew : s'.ring.Grew (Ring.write (s'.ring, w) bytes).1 :=
    Ring.write_grew (by rw [htells'.size]; exact hN)
  have howners := put_owners hgrew
  rw [howners, List.length_append, List.length_replicate, htells'.owners_length] at hbound
  obtain ⟨new', hwent⟩ := hwrote.write htells'.holds htells'.size hN hbound
  rw [← h.current] at hwent hlost hi
  obtain ⟨hself, hothers, -⟩ := mem_put_lost hwent.counted hlost
  have hnext := htells'.write hi hgrown.length_eq hlost hgrew Ring.write_draining hwent
  rw [h.current] at hwent hself hothers howners
  refine ⟨t', new', os ++ List.replicate _ s.texts.length, ⟨hnext, hwent.wrote.length_eq, ?_,
    fun i hmem => ?_, hgrown.texts, fun i hlt => ?_, fun i hge hlt hne => ?_⟩, hwent.wrote, htext,
    hself, hfrozen⟩
  · rw [howners, hgrown.owners, List.append_assoc]
  · rcases List.mem_append.1 hmem with hmem | hmem
    · exact hgrown.began i hmem
    · rw [List.eq_of_mem_replicate hmem]
  · rw [hothers i (by omega), hgrown.lost i hlt]
  · have hne' : i ≠ s.texts.length := fun he => hne (congrArg some he)
    exact (hgrown.kept i hge hlt hne).congr (hwent.other i hne') List.prefix_rfl (hothers i hne')

/-- The record is over. -/
lemma Midway.publish (h : Midway N s total total w s') :
    Reaches N s (s'.put (s'.ring.publish w)) := by
  have hput : s'.put (s'.ring.publish w) = { s' with ring := s'.ring.publish w } :=
    put_eq (Ring.publish_head _ w) (Ring.publish_lost _ w)
  have hsame : (s'.ring.publish w).draining = s.ring.draining :=
    (Ring.publish_draining _ w).trans h.draining
  rw [hput]
  refine ⟨h.owners_le, hsame, fun hbound t l htells => ?_⟩
  obtain ⟨t', new, os, hgrown, hwrote, htext, hlost, hfrozen⟩ := h.grown hbound t l htells
  have htells' := hgrown.tells
  obtain ⟨d, hd⟩ := hwrote.publish htells'.holds htells'.size
  refine ⟨t', d, os, ⟨?_, by simpa using hd.length_eq, hgrown.owners, hgrown.began, hgrown.texts,
    hgrown.lost, fun i hge hlt _ => ?_⟩, hfrozen⟩
  · refine ⟨(Ring.publish_size _ w).trans htells'.size, hd.holds, ?_, htells'.owners_lt,
      htells'.lost_lt, fun p b hb => hd.settles.append_left l p b (htells'.sunk p b hb),
      fun hidle => ?_, htells'.due, htells'.notices, htells'.points⟩
    · have hlen := htells'.owners_length
      simp only [List.length_append, List.length_map, hgrown.length_eq, hd.length_eq] at hlen ⊢
      exact hlen
    · exact htells'.sunk_length ((Ring.publish_draining _ w).symm.trans hidle)
  by_cases hi : i = s.texts.length
  · -- the record itself: all of its text, or the start of it in full slots
    subst hi
    refine ⟨own s.texts.length d os, total, own_map some, htext, fun hnot => ?_, fun hmem => ?_⟩
    · exact hd.all (by rwa [hlost, Bool.not_eq_true] at hnot)
    · have htrunc := hlost.1 hmem
      refine ⟨hd.part htrunc, ?_⟩
      rw [List.length_flatten]
      refine List.dvd_sum fun n hn => ?_
      obtain ⟨f, hf, rfl⟩ := List.mem_map.1 hn
      exact (hd.full (hwrote.hasRoom_eq_false htrunc) f hf).symm.dvd
  · -- any other record has the slots it had
    exact (hgrown.kept i hge hlt fun he => hi (Option.some.inj he)).congr (hd.other i hi)
      List.prefix_rfl Iff.rfl

end Chronicle

end BoardSupport.Log
