import BoardSupport.Proofs.LogCalls
import BoardSupport.Proofs.LogRecord

/-!
The logger as a bounded queue of pieces of text.

A record that is not interrupted is cut into pieces of the length of a slot, and as many of the
first pieces go into the ring as there are free slots. A drain gives the chunks at the front to the
sink, up to the first that is not published yet.
-/

namespace BoardSupport.Log

/-! ### Pieces -/

/-- The text cut to the length of a slot; the last piece may be shorter. -/
def pieces (text : List UInt8) : List (List UInt8) :=
  (List.range ((text.length + slotLength - 1) / slotLength)).map fun i =>
    (text.drop (slotLength * i)).take slotLength

section

variable {text : List UInt8}

@[simp] lemma pieces_nil : pieces [] = [] := rfl

lemma pieces_of_le (h : text ≠ []) (hle : text.length ≤ slotLength) : pieces text = [text] := by
  have hpos := List.length_pos_iff.2 h
  have hone : (text.length + slotLength - 1) / slotLength = 1 := by
    simp only [slotLength] at hle ⊢
    omega
  rw [pieces, hone]
  simp [List.take_of_length_le hle]

lemma pieces_singleton (b : UInt8) : pieces [b] = [[b]] :=
  pieces_of_le (by simp) (Nat.le_of_ble_eq_true rfl)

lemma pieces_of_ge (hge : slotLength ≤ text.length) :
    pieces text = text.take slotLength :: pieces (text.drop slotLength) := by
  have hcount : (text.length + slotLength - 1) / slotLength =
      ((text.drop slotLength).length + slotLength - 1) / slotLength + 1 := by
    rw [List.length_drop]
    simp only [slotLength] at hge ⊢
    omega
  rw [pieces, hcount, List.range_succ_eq_map, List.map_cons, List.map_map, pieces]
  congr 1
  refine List.map_congr_left fun i _ => ?_
  rw [Function.comp_apply, List.drop_drop, Nat.succ_eq_add_one, Nat.mul_add, Nat.mul_one,
    Nat.add_comm]

/-- One byte more goes to the last piece, or makes a piece of its own. -/
lemma pieces_snoc (b : UInt8) (h : text ≠ []) : ∃ init last, pieces text = init ++ [last] ∧
    pieces (text ++ [b]) =
      if last.length < slotLength then init ++ [last ++ [b]] else init ++ [last, [b]] := by
  induction hn : text.length using Nat.strong_induction_on generalizing text with
  | _ n ih =>
    subst hn
    rcases Nat.lt_or_ge slotLength text.length with hlong | hshort
    · -- the first slot is full, so the byte goes to the rest of the text
      obtain ⟨init, last, hlast, hsnoc⟩ := ih (text.drop slotLength).length
        (by rw [List.length_drop]; simp only [slotLength] at hlong ⊢; omega)
        (List.ne_nil_of_length_pos (by rw [List.length_drop]; omega)) rfl
      refine ⟨text.take slotLength :: init, last, ?_, ?_⟩
      · rw [pieces_of_ge hlong.le, hlast, List.cons_append]
      · rw [pieces_of_ge (by rw [List.length_append]; omega),
          List.take_append_of_le_length hlong.le, List.drop_append_of_le_length hlong.le, hsnoc]
        split <;> rfl
    · refine ⟨[], text, pieces_of_le h hshort, ?_⟩
      split
      · next hlt =>
        exact pieces_of_le (by simp) (by rw [List.length_append]; exact hlt)
      · next hge =>
        -- exactly one slot is full, and the byte opens the next
        have hlen : text.length = slotLength := by omega
        rw [pieces_of_ge (by rw [List.length_append]; omega), List.take_left' hlen,
          List.drop_left' hlen, pieces_singleton]
        rfl

lemma pieces_snoc_of_eq {init : List (List UInt8)} {last : List UInt8}
    (h : pieces text = init ++ [last]) (b : UInt8) : pieces (text ++ [b]) =
      if last.length < slotLength then init ++ [last ++ [b]] else init ++ [last, [b]] := by
  have hne : text ≠ [] := by
    rintro rfl
    exact List.append_ne_nil_of_right_ne_nil init (List.cons_ne_nil last []) h.symm
  obtain ⟨init', last', hcut, hsnoc⟩ := pieces_snoc b hne
  obtain ⟨rfl, hlast⟩ := List.append_inj' (h.symm.trans hcut) rfl
  obtain rfl := List.singleton_inj.1 hlast
  exact hsnoc

lemma flatten_pieces (text : List UInt8) : (pieces text).flatten = text := by
  induction text using List.reverseRecOn with
  | nil => rfl
  | append_singleton text b ih =>
    by_cases h : text = []
    · subst h
      rw [List.nil_append, pieces_singleton]
      rfl
    · obtain ⟨init, last, hlast, hsnoc⟩ := pieces_snoc b h
      rw [hlast] at ih
      rw [hsnoc, ← ih]
      split <;> simp

end

/-! ### What a record does to the ring -/

namespace Ring

variable {r : Ring} {N t lost : ℕ} {l : List (Option (List UInt8))} {d : Bool}

/-- The ring as a queue: its chunks from position `t` on, its size, its count of lost records and
whether a drain is going on. -/
structure Stands (r : Ring) (N t : ℕ) (l : List (Option (List UInt8))) (lost : ℕ) (d : Bool) :
    Prop where
  holds : r.Holds t l
  size : r.size = N
  lost : r.lost = lost
  draining : r.draining = d

lemma stands_new (N : ℕ) : (new N).Stands N 0 [] 0 false :=
  ⟨holds_new N, by simp [new, size], rfl, rfl⟩

lemma Stands.reserve (h : r.Stands N t l lost d) (hroom : l.length < t + N)
    (hbound : l.length + 1 < 2 ^ 64) :
    r.reserve = (some (l.length % N), r.reserved (l.length % N)) ∧
      (r.reserved (l.length % N)).Stands N t (l ++ [none]) lost d := by
  obtain ⟨hholds, rfl, hlost, hdraining⟩ := h
  exact ⟨hholds.reserve_eq hroom, hholds.reserved hroom hbound, reserved_size _, hlost, hdraining⟩

lemma Stands.publish (h : r.Stands N t (l ++ [none]) lost d) (chunk : List UInt8) :
    (r.setSlot (l.length % N) (.ready chunk)).Stands N t (l ++ [some chunk]) lost d := by
  obtain ⟨hholds, rfl, hlost, hdraining⟩ := h
  have hle : t ≤ l.length := hholds.le_of_writing (by simp)
  have hset : (l ++ [none]).set l.length (some chunk) = l ++ [some chunk] := by simp
  refine ⟨?_, setSlot_size _ _ _, hlost, hdraining⟩
  rw [← hset]
  exact hholds.publish hle (by simp)

/-- The chunks after a record of the text, which takes the slots that are free. -/
def entered (N t : ℕ) (l : List (Option (List UInt8))) (text : List UInt8) :
    List (Option (List UInt8)) :=
  l ++ ((pieces text).take (t + N - l.length)).map some

/-- A record has written the text without a break, into a ring that stood at `l`. -/
inductive Filled (N t : ℕ) (l : List (Option (List UInt8))) (lost : ℕ) (d : Bool) :
    List UInt8 → Ring × Writer → Prop where
  | start {r : Ring} (stands : r.Stands N t l lost d) : Filled N t l lost d [] (r, {})
  /-- All pieces have found a slot, and the last one is not published yet. -/
  | filling {r : Ring} {text last : List UInt8} {init : List (List UInt8)}
      (cut : pieces text = init ++ [last]) (room : l.length + init.length < t + N)
      (stands : r.Stands N t (l ++ init.map some ++ [none]) lost d) :
      Filled N t l lost d text (r, { slot := some ((l.length + init.length) % N, last) })
  /-- The ring was full before the last piece. -/
  | truncated {r : Ring} {text : List UInt8} (short : t + N < l.length + (pieces text).length)
      (stands : r.Stands N t (entered N t l text) (lost + 1) d) :
      Filled N t l lost d text (r, { truncated := true })

/-- A byte for which there is no room goes to the next slot. -/
lemma push_of_full {w : Writer} (hw : w.truncated = false) (hfull : hasRoom w = false) (b : UInt8) :
    push (r, w) b = ((r.advance w).1,
      { (r.advance w).2 with slot := (r.advance w).2.slot.map fun s => (s.1, s.2 ++ [b]) }) := by
  unfold push
  rw [if_neg (by simp [hw]), if_neg (by simp [hfull])]

/-- Another slot after the pieces so far, if there is one, and a byte into it. -/
lemma Stands.next (init : List (List UInt8)) {text : List UInt8} {b : UInt8} {w : Writer}
    (h : (r.publish w).Stands N t (l ++ init.map some) lost d)
    (hroom : l.length + init.length ≤ t + N) (hcut : pieces (text ++ [b]) = init ++ [[b]])
    (hw : w.truncated = false) (hfull : hasRoom w = false)
    (hbound : (entered N t l (text ++ [b])).length < 2 ^ 64) :
    Filled N t l lost d (text ++ [b]) (push (r, w) b) := by
  have hpush := push_of_full (r := r) hw hfull b
  have hlen : (l ++ init.map some).length = l.length + init.length := by simp
  rcases Nat.lt_or_ge (l.length + init.length) (t + N) with hfree | hfull
  · -- the byte has a slot to go to
    have hall : entered N t l (text ++ [b]) = l ++ (init ++ [[b]]).map some := by
      rw [entered, hcut, List.take_of_length_le]
      rw [List.length_append, List.length_singleton]
      omega
    rw [hall] at hbound
    obtain ⟨hreserve, hstands⟩ := h.reserve (by rw [hlen]; exact hfree)
      (by simp at hbound; rw [hlen]; omega)
    have hadvance : r.advance w = ((r.publish w).reserved ((l.length + init.length) % N),
        { w with slot := some ((l.length + init.length) % N, []) }) := by
      rw [Ring.advance, hreserve, hlen]
    rw [hlen] at hstands
    rw [hpush, hadvance]
    have hfilled : Filled N t l lost d (text ++ [b])
        ((r.publish w).reserved ((l.length + init.length) % N),
          { slot := some ((l.length + init.length) % N, [b]) }) := .filling hcut hfree hstands
    simpa [hw] using hfilled
  · -- there is none, and the record ends with the pieces it has
    have hadvance : r.advance w = ({ r.publish w with lost := (r.publish w).lost + 1 },
        { slot := none, truncated := true }) := by
      rw [Ring.advance, h.holds.reserve_full (by rw [hlen, h.size]; omega)]
    have hsame : entered N t l (text ++ [b]) = l ++ init.map some := by
      rw [entered, hcut, List.take_append_of_le_length (by omega),
        List.take_of_length_le (by omega)]
    rw [hpush, hadvance]
    refine .truncated (by rw [hcut]; simp; omega) ?_
    rw [hsame]
    exact ⟨h.holds.congr rfl rfl rfl, h.size, congrArg (· + 1) h.lost, h.draining⟩

lemma length_entered (N t : ℕ) (l : List (Option (List UInt8))) (text : List UInt8) :
    (entered N t l text).length = l.length + min (t + N - l.length) (pieces text).length := by
  rw [entered, List.length_append, List.length_map, List.length_take]

lemma length_entered_le (text more : List UInt8) :
    (entered N t l text).length ≤ (entered N t l (text ++ more)).length := by
  have hmono : (pieces text).length ≤ (pieces (text ++ more)).length := by
    simp only [pieces, List.length_map, List.length_range, List.length_append, slotLength]
    omega
  rw [length_entered, length_entered]
  omega

/-- One byte. -/
lemma Filled.push {text : List UInt8} {rw : Ring × Writer} (h : Filled N t l lost d text rw)
    (b : UInt8) (hbound : (entered N t l (text ++ [b])).length < 2 ^ 64) :
    Filled N t l lost d (text ++ [b]) (push rw b) := by
  cases h with
  | start stands =>
    have hfits := stands.holds.fits
    rw [stands.size] at hfits
    exact Stands.next [] (by simpa [Ring.publish] using stands) hfits
      (by rw [List.nil_append, pieces_singleton]; rfl) rfl rfl hbound
  | @filling r text last init cut room stands =>
    have hsnoc := pieces_snoc_of_eq cut b
    by_cases hlt : last.length < slotLength
    · rw [if_pos hlt] at hsnoc
      have hpush : Ring.push (r, { slot := some ((l.length + init.length) % N, last) }) b =
          (r, { slot := some ((l.length + init.length) % N, last ++ [b]) }) := by
        simp [Ring.push, hasRoom, hlt]
      rw [hpush]
      exact .filling hsnoc room stands
    · -- the slot is published before the next one is asked for
      rw [if_neg hlt] at hsnoc
      have hlen : (l ++ init.map some).length = l.length + init.length := by simp
      have hpublish := stands.publish last
      rw [hlen, List.append_assoc] at hpublish
      refine Stands.next (init ++ [last]) ?_ ?_ (by rw [hsnoc]; simp) rfl
        (by simpa [hasRoom] using hlt) hbound
      · simpa [Ring.publish] using hpublish
      · rw [List.length_append, List.length_singleton]
        omega
  | @truncated r text short stands =>
    have hne : text ≠ [] := by
      rintro rfl
      have hfits := stands.holds.fits
      rw [stands.size] at hfits
      simp [entered] at hfits short
      omega
    -- the pieces that found a slot are full, so what is added does not change them
    obtain ⟨init, last, hcut, hsnoc⟩ := pieces_snoc b hne
    have hinit : t + N - l.length ≤ init.length := by
      rw [hcut, List.length_append, List.length_singleton] at short
      omega
    have hsame : entered N t l (text ++ [b]) = entered N t l text := by
      rw [entered, entered, hcut, hsnoc]
      split <;> rw [List.take_append_of_le_length hinit, List.take_append_of_le_length hinit]
    have hpush : Ring.push (r, { truncated := true }) b = (r, { truncated := true }) := rfl
    rw [hpush]
    refine .truncated ?_ (by rw [hsame]; exact stands)
    rw [hcut, List.length_append, List.length_singleton] at short
    rw [hsnoc]
    split <;> simp <;> omega

lemma Filled.write {text : List UInt8} {rw : Ring × Writer} (h : Filled N t l lost d text rw)
    (more : List UInt8) (hbound : (entered N t l (text ++ more)).length < 2 ^ 64) :
    Filled N t l lost d (text ++ more) (Ring.write rw more) := by
  induction more generalizing text rw with
  | nil =>
    rw [List.append_nil]
    exact h
  | cons b rest ih =>
    have hassoc : text ++ b :: rest = text ++ [b] ++ rest := by simp
    rw [hassoc] at hbound ⊢
    exact ih (h.push b ((length_entered_le _ rest).trans_lt hbound)) hbound

/-- Whether a record of the text is cut short, as a count. -/
def shortfall (N t : ℕ) (l : List (Option (List UInt8))) (text : List UInt8) : ℕ :=
  if t + N < l.length + (pieces text).length then 1 else 0

/-- A record of any text: as many of its first pieces enter as find a slot. -/
lemma Stands.record (h : r.Stands N t l lost d) (text : List UInt8)
    (hbound : (entered N t l text).length < 2 ^ 64) :
    ((write (r, {}) text).1.publish (write (r, {}) text).2).Stands N t (entered N t l text)
      (lost + shortfall N t l text) d := by
  have hfilled := (Filled.start h).write text hbound
  have hfits := h.holds.fits
  rw [h.size] at hfits
  rw [List.nil_append] at hfilled
  generalize write (r, {}) text = rw at hfilled
  cases hfilled with
  | start stands =>
    have hnone : shortfall N t l [] = 0 := if_neg (by simp; omega)
    rw [hnone]
    simpa [Ring.publish, entered] using stands
  | @filling r' _ last init cut room stands =>
    have hall : entered N t l text = l ++ (init ++ [last]).map some := by
      rw [entered, cut, List.take_of_length_le]
      rw [List.length_append, List.length_singleton]
      omega
    have hnone : shortfall N t l text = 0 :=
      if_neg (by rw [cut, List.length_append, List.length_singleton]; omega)
    have hlen : (l ++ init.map some).length = l.length + init.length := by simp
    have hpublish := stands.publish last
    rw [hlen] at hpublish
    rw [hall, hnone]
    simpa [Ring.publish] using hpublish
  | truncated short stands =>
    rw [shortfall, if_pos short]
    exact stands

/-! ### What a drain takes -/

/-- The chunks before the first that is not published yet. -/
def published {α : Type} : List (Option α) → List α
  | some a :: l => a :: published l
  | _ => []

@[simp] lemma published_map_some {α : Type} (l : List α) : published (l.map some) = l := by
  induction l with
  | nil => rfl
  | cons a l ih => rw [List.map_cons, published, ih]

lemma published_drop {α : Type} (l : List (Option α)) (t : ℕ) :
    published (l.drop t) =
      match l[t]? with
      | some (some a) => a :: published (l.drop (t + 1))
      | _ => [] := by
  rcases Nat.lt_or_ge t l.length with hlt | hge
  · rw [List.drop_eq_getElem_cons hlt, List.getElem?_eq_getElem hlt]
    cases l[t] <;> rfl
  · rw [List.drop_eq_nil_of_le hge, List.getElem?_eq_none hge]
    rfl

lemma Stands.front?_eq (h : r.Stands N t l lost d) : r.front? = (published (l.drop t)).head? := by
  rw [h.holds.front?_eq, published_drop]
  rcases l[t]? with _ | _ | _ <;> rfl

lemma Stands.pop {chunk : List UInt8} {rest : List (List UInt8)} (h : r.Stands N t l lost d)
    (hp : published (l.drop t) = chunk :: rest) :
    r.pop.Stands N (t + 1) l lost d ∧ published (l.drop (t + 1)) = rest := by
  rw [published_drop] at hp
  -- the slot at the tail is free, still being written, or ready
  rcases hchunk : l[t]? with _ | _ | c
  · rw [hchunk] at hp
    cases hp
  · rw [hchunk] at hp
    cases hp
  · rw [hchunk] at hp
    exact ⟨⟨h.holds.pop hchunk, (setSlot_size _ _ _).trans h.size, h.lost, h.draining⟩,
      (List.cons_eq_cons.1 hp).2⟩

end Ring

/-! ### The logger undisturbed -/

/-- A record of plain text. -/
def Entry.plain {σ : Type} (level : Level) (path : Option String) (line : Option ℕ)
    (message : List String) : Entry σ :=
  ⟨level, path, line, message.map .text⟩

/-- The text of a record from its heading to the end of its line. -/
def recordText (level : Level) (path : Option String) (line : Option ℕ) (message : List String)
    (stamp : Stamp) : List UInt8 :=
  (heading level path line stamp ++ message ++ ["\n"]).flatMap Text.utf8

/-- What comes out before the chunks of a drain. -/
def notice (lost : ℕ) : List (List UInt8) := if 0 < lost then [Text.utf8 lostNotice] else []

namespace Logger

variable {σ β γ : Type} {l : Logger σ} {out : σ → List β} {aside : σ → γ} {clock : γ → Stamp}
  {render : List UInt8 → List β} {s : σ}

/-- Nothing breaks in on the logger: its stamp comes from what is kept aside, and its sink renders
each chunk to the output, while both leave the ring alone. -/
structure Undisturbed (l : Logger σ) (out : σ → List β) (aside : σ → γ) (clock : γ → Stamp)
    (render : List UInt8 → List β) : Prop where
  get_put : ∀ r s, l.ring.get (l.ring.put r s) = r
  out_put : ∀ r s, out (l.ring.put r s) = out s
  aside_put : ∀ r s, aside (l.ring.put r s) = aside s
  stamp : ∀ s, l.stamp.Ends s (fun st s' => st = clock (aside s) ∧
    l.ring.get s' = l.ring.get s ∧ out s' = out s ∧ aside s' = aside s) fun _ => False
  accept : ∀ chunk s, (l.accept chunk).Ends s (fun _ s' => l.ring.get s' = l.ring.get s ∧
    out s' = out s ++ render chunk ∧ aside s' = aside s) fun _ => False
  interrupt : l.interrupt = pure ()

/-- How the ring stands, what came out so far and what is kept aside. -/
structure Standing (l : Logger σ) (out : σ → List β) (aside : σ → γ) (N t : ℕ)
    (chunks : List (Option (List UInt8))) (lost : ℕ) (d : Bool) (o : List β) (g : γ) (s : σ) :
    Prop where
  ring : (l.ring.get s).Stands N t chunks lost d
  out : out s = o
  aside : aside s = g

variable {N t lost : ℕ} {chunks : List (Option (List UInt8))} {d : Bool} {o : List β} {g : γ}

lemma Undisturbed.standing_put (h : l.Undisturbed out aside clock render)
    (hs : l.Standing out aside N t chunks lost d o g s) {r : Ring} {N' t' lost' : ℕ}
    {chunks' : List (Option (List UInt8))} {d' : Bool} (hr : r.Stands N' t' chunks' lost' d') :
    l.Standing out aside N' t' chunks' lost' d' o g (l.ring.put r s) :=
  ⟨by rw [h.get_put]; exact hr, by rw [h.out_put, hs.out], by rw [h.aside_put, hs.aside]⟩

/-- Up to `n` of the chunks that are published come out. -/
lemma Undisturbed.ends_drainSlots (h : l.Undisturbed out aside clock render)
    (hs : l.Standing out aside N t chunks lost d o g s) (n : ℕ) :
    (l.drainSlots n).Ends s (fun _ s' => l.Standing out aside N
      (t + ((Ring.published (chunks.drop t)).take n).length) chunks lost d
      (o ++ ((Ring.published (chunks.drop t)).take n).flatMap render) g s') fun _ => False := by
  induction n generalizing t o s with
  | zero =>
    rw [drainSlots, Proc.ends_pure]
    simpa using hs
  | succ n ih =>
    rw [drainSlots, Proc.ends_bind, Cell.ends_read, hs.ring.front?_eq]
    cases hp : Ring.published (chunks.drop t) with
    | nil =>
      -- nothing is ready at the tail, whatever may be behind it
      rw [List.head?_nil, Proc.ends_pure]
      simpa using hs
    | cons chunk rest =>
      obtain ⟨hpop, hrest⟩ := hs.ring.pop hp
      simp only [List.head?_cons, Proc.ends_bind]
      refine (h.accept chunk s).imp ?_
      rintro _ s₁ ⟨hring, hout, haside⟩
      rw [Cell.ends_update, hring]
      have hs₁ : l.Standing out aside N t chunks lost d (o ++ render chunk) g s₁ :=
        ⟨by rw [hring]; exact hs.ring, by rw [hout, hs.out], by rw [haside, hs.aside]⟩
      refine (ih (h.standing_put hs₁ hpop)).imp fun _ s' hs' => ?_
      rw [hrest] at hs'
      simpa [Nat.add_assoc, Nat.add_comm, Nat.add_left_comm] using hs'

/-- A drain ends with the sink free and no loss to tell. -/
lemma Undisturbed.ends_drainLocked (h : l.Undisturbed out aside clock render)
    (hs : l.Standing out aside N t chunks lost d o g s) (n : ℕ) :
    (l.drainLocked n).Ends s (fun _ s' => l.Standing out aside N
      (t + ((Ring.published (chunks.drop t)).take n).length) chunks 0 false
      (o ++ (notice lost ++ (Ring.published (chunks.drop t)).take n).flatMap render) g s')
      fun _ => False := by
  have hlock : ({ l.ring.get s with draining := true } : Ring).Stands N t chunks lost true :=
    ⟨hs.ring.holds.congr rfl rfl rfl, hs.ring.size, hs.ring.lost, rfl⟩
  have hforget : ({ l.ring.get s with draining := true } : Ring).forgetLost.Stands N t chunks 0
      true := ⟨hs.ring.holds.congr rfl rfl rfl, hs.ring.size, rfl, rfl⟩
  simp only [drainLocked, drain, Proc.ends_bind, Cell.ends_read, Cell.ends_update, h.get_put,
    hlock.lost]
  have hs₁ := h.standing_put (h.standing_put hs hlock) hforget
  -- whatever the notice, the slots follow and the sink is freed
  have hrest : ∀ {s₂ : σ} {o' : List β}, l.Standing out aside N t chunks 0 true o' g s₂ →
      (l.drainSlots n).Ends s₂ (fun _ s' => l.Standing out aside N
        (t + ((Ring.published (chunks.drop t)).take n).length) chunks 0 false
        (o' ++ ((Ring.published (chunks.drop t)).take n).flatMap render) g
        (l.ring.put { l.ring.get s' with draining := false } s')) fun _ => False := by
    intro s₂ o' hs₂
    refine (h.ends_drainSlots hs₂ n).imp fun _ s' hs' => h.standing_put hs' ?_
    exact ⟨hs'.ring.holds.congr rfl rfl rfl, hs'.ring.size, hs'.ring.lost, rfl⟩
  split
  · next hlost =>
    rw [Proc.ends_bind]
    refine (h.accept _ _).imp ?_
    rintro _ s₂ ⟨hring, hout, haside⟩
    have hs₂ : l.Standing out aside N t chunks 0 true (o ++ render (Text.utf8 lostNotice)) g s₂ :=
      ⟨by rw [hring]; exact hs₁.ring, by rw [hout, hs₁.out], by rw [haside, hs₁.aside]⟩
    refine (hrest hs₂).imp fun _ s' hs' => ?_
    rw [notice, if_pos hlost]
    simpa using hs'
  · next hlost =>
    rw [notice, if_neg hlost]
    exact hrest hs₁

/-- The pieces in which a text is written do not matter. -/
lemma Undisturbed.ends_writePieces (h : l.Undisturbed out aside clock render) (w : Writer)
    (texts : List String) :
    (l.writePieces w (texts.map .text)).Ends s (fun w' s' =>
      (l.ring.get s', w') = Ring.write (l.ring.get s, w) (texts.flatMap Text.utf8) ∧
        out s' = out s ∧ aside s' = aside s) fun _ => False := by
  have hbytes : (texts.map .text : List (Piece σ)).flatMap Piece.bytes =
      texts.flatMap Text.utf8 := List.flatMap_map ..
  rw [← hbytes]
  refine Logger.ends_writePieces (M := fun text w' s' =>
    (l.ring.get s', w') = Ring.write (l.ring.get s, w) text ∧ out s' = out s ∧
      aside s' = aside s) (fun bytes text w₁ s₁ h₁ => ?_) (by simp) [] ⟨rfl, rfl, rfl⟩
  obtain ⟨hwrite, hout, haside⟩ := h₁
  rw [h.interrupt, Proc.ends_pure, h.get_put, h.out_put, h.aside_put, Ring.write_append, ← hwrite]
  exact ⟨rfl, hout, haside⟩

lemma Undisturbed.ends_record (h : l.Undisturbed out aside clock render)
    (hs : l.Standing out aside N t chunks lost d o g s) {level : Level} {path : Option String}
    {line : Option ℕ} {message : List String} {text : List UInt8}
    (htext : text = recordText level path line message (clock g))
    (hbound : (Ring.entered N t chunks text).length < 2 ^ 64) :
    (l.record (.plain level path line message)).Ends s (fun _ s' => l.Standing out aside N t
      (Ring.entered N t chunks text) (lost + Ring.shortfall N t chunks text) d o g s')
      fun _ => False := by
  rw [record, Proc.ends_bind]
  refine (h.stamp s).imp ?_
  rintro _ s₁ ⟨rfl, hring, hout, haside⟩
  have hpieces : (Entry.plain level path line message : Entry σ).pieces (clock (aside s)) =
      (heading level path line (clock (aside s)) ++ message ++ ["\n"]).map .text := by
    simp [Entry.pieces, Entry.plain]
  rw [hpieces, Proc.ends_bind]
  refine (h.ends_writePieces {} _).imp ?_
  rintro w s₂ ⟨hwrite, hout₂, haside₂⟩
  have hrecord := hs.ring.record text hbound
  have hdone : Ring.write (l.ring.get s, {}) text = (l.ring.get s₂, w) := by
    rw [hwrite, hring, htext, recordText, hs.aside]
  rw [hdone] at hrecord
  rw [Cell.ends_update]
  exact ⟨by rw [h.get_put]; exact hrecord, by rw [h.out_put, hout₂, hout, hs.out],
    by rw [h.aside_put, haside₂, haside, hs.aside]⟩

lemma log_of_filtered {level : Level} {path : Option String} {line : Option ℕ}
    {message : List String} (hlevel : ¬ l.filter.admits level = true) :
    l.log (.plain level path line message) = pure () := if_neg hlevel

/-- A record that is let through while the sink is free. -/
lemma Undisturbed.ends_log (h : l.Undisturbed out aside clock render)
    (hs : l.Standing out aside N t chunks lost false o g s) {level : Level} {path : Option String}
    {line : Option ℕ} {message : List String} {text : List UInt8}
    (hlevel : l.filter.admits level = true)
    (htext : text = recordText level path line message (clock g))
    (hbound : (Ring.entered N t chunks text).length < 2 ^ 64) :
    (l.log (.plain level path line message)).Ends s (fun _ s' => l.Standing out aside N
      (t + ((Ring.published ((Ring.entered N t chunks text).drop t)).take (N / 3)).length)
      (Ring.entered N t chunks text) 0 false
      (o ++ (notice (lost + Ring.shortfall N t chunks text) ++
        (Ring.published ((Ring.entered N t chunks text).drop t)).take (N / 3)).flatMap render)
      g s') fun _ => False := by
  have henabled : l.enabled (Entry.plain level path line message : Entry σ).level = true := hlevel
  rw [Logger.log, if_pos henabled, Proc.ends_bind]
  refine (h.ends_record hs htext hbound).imp fun _ s₁ hs₁ => ?_
  rw [Proc.ends_bind, Cell.ends_read, if_neg (by simp [hs₁.ring.draining]), hs₁.ring.size]
  exact h.ends_drainLocked hs₁ (N / 3)

/-- A record that comes while a drain is going on stays in the ring. -/
lemma Undisturbed.ends_log_draining (h : l.Undisturbed out aside clock render)
    (hs : l.Standing out aside N t chunks lost true o g s) {level : Level} {path : Option String}
    {line : Option ℕ} {message : List String} {text : List UInt8}
    (hlevel : l.filter.admits level = true)
    (htext : text = recordText level path line message (clock g))
    (hbound : (Ring.entered N t chunks text).length < 2 ^ 64) :
    (l.log (.plain level path line message)).Ends s (fun _ s' => l.Standing out aside N t
      (Ring.entered N t chunks text) (lost + Ring.shortfall N t chunks text) true o g s')
      fun _ => False := by
  have henabled : l.enabled (Entry.plain level path line message : Entry σ).level = true := hlevel
  rw [Logger.log, if_pos henabled, Proc.ends_bind]
  refine (h.ends_record hs htext hbound).imp fun _ s₁ hs₁ => ?_
  rw [Proc.ends_bind, Cell.ends_read, if_pos hs₁.ring.draining, Proc.ends_pure]
  exact hs₁

lemma Undisturbed.ends_flush (h : l.Undisturbed out aside clock render)
    (hs : l.Standing out aside N t chunks lost false o g s) :
    l.flush.Ends s (fun _ s' => l.Standing out aside N
      (t + ((Ring.published (chunks.drop t)).take N).length) chunks 0 false
      (o ++ (notice lost ++ (Ring.published (chunks.drop t)).take N).flatMap render) g s')
      fun _ => False := by
  rw [flush, Proc.ends_bind, Cell.ends_read, if_neg (by simp [hs.ring.draining]), hs.ring.size]
  exact h.ends_drainLocked hs N

end Logger

/-! ### The bounded queue -/

/-- The logger as it is meant: pieces that wait, whether some found no place, and what the sink has
received. -/
structure Backlog where
  waiting : List (List UInt8) := []
  lossy : Bool := false
  sunk : List (List UInt8) := []
  /-- How many pieces were ever taken in. -/
  taken : ℕ := 0
  deriving DecidableEq

namespace Backlog

variable {N n : ℕ} {q : Backlog} {text : List UInt8}

/-- As many of the first pieces as fit. -/
def fitting (N : ℕ) (q : Backlog) (text : List UInt8) : List (List UInt8) :=
  (pieces text).take (N - q.waiting.length)

def enter (N : ℕ) (q : Backlog) (text : List UInt8) : Backlog :=
  { q with
    waiting := q.waiting ++ q.fitting N text
    lossy := q.lossy || decide ((q.fitting N text).length < (pieces text).length)
    taken := q.taken + (q.fitting N text).length }

/-- The notice of a loss, if there was one, and up to `n` pieces go to the sink. -/
def release (n : ℕ) (q : Backlog) : Backlog :=
  { q with
    waiting := q.waiting.drop n
    lossy := false
    sunk := q.sunk ++ (if q.lossy then [Text.utf8 lostNotice] else []) ++ q.waiting.take n }

end Backlog

/-- A call of the logger, made while no other is going on. -/
inductive Call where
  | log (level : Level) (path : Option String) (line : Option ℕ) (message : List String)
      (stamp : Stamp)
  | flush

/-- What is asked of the queue. -/
inductive Demand where
  | enter (text : List UInt8)
  | flush

/-- A record that is let through counts by its text alone. -/
def Call.demand? (filter : Filter) : Call → Option Demand
  | .log level path line message stamp =>
    if filter.admits level then some (.enter (recordText level path line message stamp)) else none
  | .flush => some .flush

def Backlog.serve (N : ℕ) (q : Backlog) : Demand → Backlog
  | .enter text => (q.enter N text).release (N / 3)
  | .flush => q.release N

def Backlog.serveAll (N : ℕ) (demands : List Demand) (q : Backlog) : Backlog :=
  demands.foldl (Backlog.serve N) q

/-- A ring and a sink that keeps what it is given. -/
structure Desk where
  ring : Ring
  sunk : List (List UInt8) := []

namespace Desk

/-- A logger whose next record has the given stamp. -/
def logger (filter : Filter) (stamp : Stamp) : Logger Desk where
  ring := ⟨ring, fun r s => { s with ring := r }⟩
  filter
  stamp := pure stamp
  accept chunk := modify fun s => { s with sunk := s.sunk ++ [chunk] }

def perform (filter : Filter) : Call → Proc Desk Unit
  | .log level path line message stamp =>
    (logger filter stamp).log (.plain level path line message)
  | .flush => (logger filter {}).flush

def performAll (filter : Filter) : List Call → Proc Desk Unit
  | [] => pure ()
  | call :: rest => do
    perform filter call
    performAll filter rest

variable {N : ℕ} {filter : Filter} {q : Backlog} {s : Desk}

lemma undisturbed (filter : Filter) (stamp : Stamp) :
    (logger filter stamp).Undisturbed sunk (fun _ => ()) (fun _ => stamp) fun chunk => [chunk] where
  get_put _ _ := rfl
  out_put _ _ := rfl
  aside_put _ _ := rfl
  stamp _ := (Proc.ends_pure _).2 ⟨rfl, rfl, rfl, rfl⟩
  accept _ _ := (Proc.ends_modify _).2 ⟨rfl, rfl, rfl⟩
  interrupt := rfl

/-- The desk and the queue agree: after the pieces that are done, the ring holds those that wait. -/
structure Agrees (N : ℕ) (q : Backlog) (s : Desk) : Prop where
  fits : q.waiting.length ≤ N
  sunk : s.sunk = q.sunk
  ring : ∃ done lost, q.taken = (done ++ q.waiting).length ∧ (0 < lost ↔ q.lossy = true) ∧
    s.ring.Stands N done.length ((done ++ q.waiting).map some) lost false

lemma agrees_new (N : ℕ) : Agrees N {} ⟨.new N, []⟩ :=
  ⟨Nat.zero_le _, rfl, [], 0, rfl, by simp, Ring.stands_new N⟩

/-- A drain of either. -/
lemma Agrees.release {n lost : ℕ} {done : List (List UInt8)} {s' : Desk} {stamp : Stamp}
    (hfits : q.waiting.length ≤ N) (htaken : q.taken = (done ++ q.waiting).length)
    (hlost : 0 < lost ↔ q.lossy = true)
    (hs' : (logger filter stamp).Standing Desk.sunk (fun _ => ()) N
      (done.length +
        ((Ring.published (((done ++ q.waiting).map some).drop done.length)).take n).length)
      ((done ++ q.waiting).map some) 0 false
      (q.sunk ++ (notice lost ++
        (Ring.published (((done ++ q.waiting).map some).drop done.length)).take n).flatMap
          fun chunk => [chunk]) () s') :
    Agrees N (q.release n) s' := by
  have hpublished : Ring.published (((done ++ q.waiting).map some).drop done.length) =
      q.waiting := by
    rw [← List.map_drop, List.drop_left, Ring.published_map_some]
  have hnotice : notice lost = if q.lossy then [Text.utf8 lostNotice] else [] := by
    unfold notice
    by_cases h : q.lossy = true
    · rw [if_pos h, if_pos (hlost.2 h)]
    · rw [if_neg h, if_neg fun hpos => h (hlost.1 hpos)]
  have hsplit : done ++ q.waiting = done ++ q.waiting.take n ++ q.waiting.drop n := by
    rw [List.append_assoc, List.take_append_drop]
  rw [hpublished] at hs'
  refine ⟨?_, ?_, done ++ q.waiting.take n, 0, ?_, by simp [Backlog.release], ?_⟩
  · rw [Backlog.release, List.length_drop]
    omega
  · rw [hs'.out, hnotice, List.flatMap_singleton']
    simp [Backlog.release]
  · rw [Backlog.release, ← hsplit]
    exact htaken
  · rw [Backlog.release, ← hsplit, List.length_append]
    exact hs'.ring

/-- A record that is let through. -/
lemma Agrees.log (h : Agrees N q s) {level : Level} {path : Option String} {line : Option ℕ}
    {message : List String} {stamp : Stamp} {text : List UInt8}
    (hlevel : filter.admits level = true)
    (htext : text = recordText level path line message stamp)
    (hbound : (q.serve N (.enter text)).taken < 2 ^ 64) :
    ((logger filter stamp).log (.plain level path line message)).Ends s
      (fun _ s' => Agrees N (q.serve N (.enter text)) s') fun _ => False := by
  obtain ⟨hfits, hsunk, done, lost, htaken, hlost, hring⟩ := h
  -- the pieces that enter the ring are those that fit into the queue
  have hroom : done.length + N - ((done ++ q.waiting).map some).length = N - q.waiting.length := by
    rw [List.length_map, List.length_append]
    omega
  have hentered : Ring.entered N done.length ((done ++ q.waiting).map some) text =
      (done ++ (q.enter N text).waiting).map some := by
    rw [Ring.entered, hroom, ← List.map_append, List.append_assoc]
    rfl
  have hlossy : 0 < lost + Ring.shortfall N done.length ((done ++ q.waiting).map some) text ↔
      (q.enter N text).lossy = true := by
    have hshort : (q.fitting N text).length < (pieces text).length ↔
        done.length + N < ((done ++ q.waiting).map some).length + (pieces text).length := by
      rw [Backlog.fitting, List.length_take, List.length_map, List.length_append]
      omega
    rw [Backlog.enter, Bool.or_eq_true, decide_eq_true_eq, hshort, ← hlost, Ring.shortfall]
    split_ifs <;> omega
  have htaken' : (q.enter N text).taken = (done ++ (q.enter N text).waiting).length := by
    rw [Backlog.enter, htaken]
    simp [Nat.add_assoc]
  have hfits' : (q.enter N text).waiting.length ≤ N := by
    rw [Backlog.enter, List.length_append, Backlog.fitting, List.length_take]
    omega
  refine ((undisturbed filter stamp).ends_log ⟨hring, hsunk, rfl⟩ hlevel htext ?_).imp
    fun _ s' hs' => ?_
  · rw [hentered, List.length_map, ← htaken']
    exact hbound
  · rw [hentered] at hs'
    exact Agrees.release hfits' htaken' hlossy hs'

lemma Agrees.flush (h : Agrees N q s) :
    (logger filter {}).flush.Ends s (fun _ s' => Agrees N (q.serve N .flush) s')
      fun _ => False := by
  obtain ⟨hfits, hsunk, done, lost, htaken, hlost, hring⟩ := h
  refine ((undisturbed filter {}).ends_flush ⟨hring, hsunk, rfl⟩).imp fun _ s' hs' => ?_
  exact Agrees.release hfits htaken hlost hs'

/-! ### Sessions -/

lemma taken_le_serveAll (demands : List Demand) (q : Backlog) :
    q.taken ≤ (q.serveAll N demands).taken := by
  induction demands generalizing q with
  | nil => exact le_rfl
  | cons demand rest ih =>
    have hfirst : q.taken ≤ (q.serve N demand).taken := by
      cases demand with
      | enter text => exact Nat.le_add_right _ _
      | flush => exact le_rfl
    exact hfirst.trans (ih _)

lemma Agrees.performAll (h : Agrees N q s) (calls : List Call)
    (hbound : (q.serveAll N (calls.filterMap (Call.demand? filter))).taken < 2 ^ 64) :
    (performAll filter calls).Ends s
      (fun _ s' => Agrees N (q.serveAll N (calls.filterMap (Call.demand? filter))) s')
      fun _ => False := by
  induction calls generalizing q s with
  | nil => exact (Proc.ends_pure ()).2 h
  | cons call rest ih =>
    rw [Desk.performAll, Proc.ends_bind]
    cases call with
    | log level path line message stamp =>
      by_cases hlevel : filter.admits level = true
      · have hdemand : Call.demand? filter (.log level path line message stamp) =
            some (.enter (recordText level path line message stamp)) := if_pos hlevel
        rw [List.filterMap_cons_some hdemand] at hbound ⊢
        have hfirst := (taken_le_serveAll (N := N) _ (q.serve N _)).trans_lt hbound
        exact (h.log hlevel rfl hfirst).imp fun _ s₁ hs₁ => ih hs₁ hbound
      · -- a record that is filtered out asks for nothing
        have hdemand : Call.demand? filter (.log level path line message stamp) = none :=
          if_neg hlevel
        rw [List.filterMap_cons_none hdemand] at hbound ⊢
        rw [Desk.perform, Logger.log_of_filtered hlevel, Proc.ends_pure]
        exact ih h hbound
    | flush => exact h.flush.imp fun _ s₁ hs₁ => ih hs₁ hbound

/-- The logger is the bounded queue of pieces. Whatever calls are made, one after the other, the
sink receives what the queue gives it, as long as fewer pieces are taken in than 64 bits count. -/
theorem performAll_eq_backlog (N : ℕ) (filter : Filter) (calls : List Call)
    (hbound : (Backlog.serveAll N (calls.filterMap (Call.demand? filter)) {}).taken < 2 ^ 64) :
    ∃ s, performAll filter calls ⟨.new N, []⟩ = .ok () s ∧
      s.sunk = (Backlog.serveAll N (calls.filterMap (Call.demand? filter)) {}).sunk ∧
      (Backlog.serveAll N (calls.filterMap (Call.demand? filter)) {}).waiting.length ≤ N := by
  obtain ⟨_, s, hs, hagrees⟩ := ((agrees_new N).performAll calls hbound).returns
  exact ⟨s, hs, hagrees.sunk, hagrees.fits⟩

/-- A ring of four slots overflows, tells so at the next record, and is flushed. -/
def overflowing : List Call :=
  [.log .info (some "core::boot") (some 12) ["chip ", String.ofList (List.replicate 500 'x')] {},
    .log .trace none none ["not let through"] {},
    .log .warn none none ["b", "oot", ""] { ticks := 77 },
    .flush]

theorem performAll_eq_backlog_overflowing :
    ∃ s, performAll (some .debug) overflowing ⟨.new 4, []⟩ = .ok () s ∧
      s.sunk.map List.length = [26, 120, 120, 120, 120, 53] := by
  have hview : ((Backlog.serveAll 4 (overflowing.filterMap (Call.demand? (some .debug))) {}).taken,
      (Backlog.serveAll 4 (overflowing.filterMap (Call.demand? (some .debug))) {}).sunk.map
        List.length) = (5, [26, 120, 120, 120, 120, 53]) := by decide +kernel
  obtain ⟨htaken, hsunk⟩ := Prod.mk.inj hview
  obtain ⟨s, hs, heq, -⟩ := performAll_eq_backlog 4 (some .debug) overflowing
    (by rw [htaken]; decide)
  exact ⟨s, hs, by rw [heq, hsunk]⟩

end Desk

end BoardSupport.Log
