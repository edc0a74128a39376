import BoardSupport.Proofs.ReceiveBuffer

/-!
The receive buffer as a log that only grows.

An `Intake` is a buffer together with what happened around it since it was new or last cleared:
which units were produced for it, what its readers saw, how requests for its writing end were
answered. Readers may look and the writing end may be requested at any moment, also while an
append waits for its next unit. `Fed` says what such a stretch of an append did, `Gained` what a
whole append did, and `Orderly` is what holds between appends.
-/

namespace BoardSupport.ReceiveBuffer

variable {b b' c : ReceiveBuffer} {units more : List Word}

lemma received_write {i : ℕ} (h : b.count ≤ i) (u : Word) :
    (b.write i u).received = b.received := List.take_set_of_le h

/-- Nothing of what is published is written again. -/
lemma received_writeFrom {i : ℕ} (h : b.count ≤ i) :
    (b.writeFrom i units).received = b.received := by
  induction units generalizing b i with
  | nil => rfl
  | cons u rest ih => rw [writeFrom, ih (by rw [write_count]; omega), received_write h]

@[simp] lemma writeFrom_count (i : ℕ) : (b.writeFrom i units).count = b.count := by
  induction units generalizing b i with
  | nil => rfl
  | cons u rest ih => rw [writeFrom, ih, write_count]

/-- The buffer, whoever has its writing end. -/
def bare (b : ReceiveBuffer) : ReceiveBuffer := { b with hasWriter := false }

lemma bare_writeFrom (b : ReceiveBuffer) (i : ℕ) (units : List Word) :
    (b.writeFrom i units).bare = b.bare.writeFrom i units := by
  induction units generalizing b i with
  | nil => rfl
  | cons u rest ih => exact ih (b.write i u) (i + 1)

lemma bare_takeWriter (b : ReceiveBuffer) : (b.takeWriter.getD b).bare = b.bare := by
  unfold takeWriter
  split <;> rfl

lemma Took.of_bare (h : b.Took units c) (hbare : b'.bare = c.bare) : b.Took units b' where
  width := (congrArg ReceiveBuffer.width hbare).trans h.width
  capacity := (congrArg ReceiveBuffer.capacity hbare).trans h.capacity
  count := (congrArg ReceiveBuffer.count hbare).trans h.count
  received := (congrArg ReceiveBuffer.received hbare).trans h.received
  dropped := (congrArg ReceiveBuffer.dropped hbare).trans h.dropped

/-! ### A buffer and what happens around it -/

/-- An append that has ended. -/
structure Appended where
  asked : ℕ
  /-- How many units it took. -/
  calls : ℕ
  /-- What it returned. -/
  stored : ℕ
  /-- The count before and after. -/
  before : ℕ
  after : ℕ

/-- A buffer, its history since it was new or last cleared, and a state `τ` of everything else. -/
structure Intake (τ : Type) where
  buffer : ReceiveBuffer
  /-- All units that appends took, also those for which there was no place. -/
  produced : List Word := []
  /-- What the readers saw, in the order in which they looked. -/
  seen : List (List Word) := []
  /-- For each request for the writing end whether it was granted. -/
  answers : List Bool := []
  /-- The appends, of earlier histories too. -/
  appends : List Appended := []
  rest : τ

namespace Intake

variable {τ : Type}

def fresh (w : Width) (N : ℕ) (rest : τ) : Intake τ := { buffer := .new w N, rest }

def bufferCell : Cell (Intake τ) ReceiveBuffer := ⟨buffer, fun b s => { s with buffer := b }⟩

/-- A reader looks at what is received. -/
def look (s : Intake τ) : Intake τ := { s with seen := s.seen ++ [s.buffer.received] }

/-- The writing end is requested. -/
def request (s : Intake τ) : Intake τ :=
  { s with
    buffer := s.buffer.takeWriter.getD s.buffer
    answers := s.answers ++ [s.buffer.takeWriter.isSome] }

/-- The buffer is cleared, and a new history begins. -/
def clear (s : Intake τ) : Intake τ :=
  { buffer := s.buffer.clear, appends := s.appends, rest := s.rest }

/-- What may happen at any moment. -/
inductive Glance : Intake τ → Intake τ → Prop
  | look (s : Intake τ) : Glance s s.look
  | request (s : Intake τ) : Glance s s.request
  | elsewhere (s : Intake τ) (rest : τ) : Glance s { s with rest }

instance : IsPreorder (Intake τ) (Relation.ReflTransGen Glance) where
  refl _ := .refl
  trans _ _ _ := .trans

/-- The procedure returns, and does nothing but look, request and change what lies elsewhere, in
any order and as often as it likes. -/
def Glances {α : Type} (x : Proc (Intake τ) α) : Prop :=
  x.Keeps (Relation.ReflTransGen Glance) fun _ => False

/-- Take a unit and note it down. -/
def take (next : Proc (Intake τ) Word) : Proc (Intake τ) Word := do
  let unit ← next
  modify fun s => { s with produced := s.produced ++ [unit] }
  return unit

end Intake

open Intake

/-- What is done with a buffer, one after the other. -/
inductive Move (τ : Type)
  | append (n : ℕ) (next : ℕ → Proc (Intake τ) Word)
  | aside (x : Proc (Intake τ) Unit)
  | clear

variable {τ : Type}

/-- Whatever is not an append or a clear only glances at the buffer. -/
def Move.Proper : Move τ → Prop
  | append _ next => ∀ i, Glances (next i)
  | aside x => Glances x
  | clear => True

def Move.perform (p : Platform (Intake τ)) : Move τ → Proc (Intake τ) Unit
  | append n next => do
    let s ← get
    let stored ← ReceiveBuffer.append p bufferCell n fun i => take (next i)
    modify fun s' =>
      { s' with
        appends := s'.appends ++ [{
          asked := n
          calls := s'.produced.length - s.produced.length
          stored
          before := s.buffer.count
          after := s'.buffer.count }] }
  | aside x => x
  | clear => modify Intake.clear

namespace Intake

variable {s s' s'' : Intake τ} {i : ℕ}

/-! ### Within an append -/

/-- Only the first request is granted, and then the writing end is gone. -/
structure Granted (s : Intake τ) : Prop where
  first : ∀ i a, s.answers[i]? = some a → (a = true ↔ i = 0)
  taken : s.buffer.hasWriter = !s.answers.isEmpty

lemma Granted.request (h : s.Granted) : s.request.Granted := by
  refine ⟨fun i a ha => ?_, ?_⟩
  · rw [Intake.request, List.getElem?_append] at ha
    split at ha
    · exact h.first i a ha
    · next hi =>
      have htaken := h.taken
      cases hanswers : s.answers <;> grind [takeWriter]
  · have htaken := h.taken
    simp only [Intake.request, takeWriter]
    cases hw : s.buffer.hasWriter <;> simp [hw]

/-- Units were produced and written from place `i` up. Nothing was published: whoever looked saw
what was received already. -/
structure Fed (i : ℕ) (units : List Word) (s s' : Intake τ) : Prop where
  bare : s'.buffer.bare = s.buffer.bare.writeFrom i units
  produced : s'.produced = s.produced ++ units
  appends : s'.appends = s.appends
  seen : ∃ k, s'.seen = s.seen ++ List.replicate k s.buffer.received
  granted : s.Granted → s'.Granted

lemma fed_refl (i : ℕ) (s : Intake τ) : Fed i [] s s :=
  ⟨rfl, (List.append_nil _).symm, rfl, ⟨0, (List.append_nil _).symm⟩, id⟩

lemma Fed.capacity (h : Fed i units s s') : s'.buffer.capacity = s.buffer.capacity :=
  (congrArg ReceiveBuffer.capacity h.bare).trans (writeFrom_capacity i)

lemma Fed.count (h : Fed i units s s') : s'.buffer.count = s.buffer.count :=
  (congrArg ReceiveBuffer.count h.bare).trans (writeFrom_count i)

lemma Fed.received (h : Fed i units s s') (hi : s.buffer.count ≤ i) :
    s'.buffer.received = s.buffer.received :=
  (congrArg ReceiveBuffer.received h.bare).trans (received_writeFrom hi)

lemma Fed.trans (h : Fed i units s s') (hi : s.buffer.count ≤ i)
    (h' : Fed (i + units.length) more s' s'') : Fed i (units ++ more) s s'' where
  bare := by rw [h'.bare, h.bare, writeFrom_append]
  produced := by rw [h'.produced, h.produced, List.append_assoc]
  appends := h'.appends.trans h.appends
  seen := by
    obtain ⟨k, hk⟩ := h.seen
    obtain ⟨l, hl⟩ := h'.seen
    exact ⟨k + l, by rw [hl, hk, h.received hi, List.append_assoc, List.replicate_append_replicate]⟩
  granted := h'.granted ∘ h.granted

lemma Glance.fed (h : Glance s s') (i : ℕ) : Fed i [] s s' := by
  cases h with
  | look =>
    exact ⟨rfl, (List.append_nil _).symm, rfl, ⟨1, rfl⟩, fun h => ⟨h.first, h.taken⟩⟩
  | request =>
    exact ⟨bare_takeWriter _, (List.append_nil _).symm, rfl, ⟨0, (List.append_nil _).symm⟩,
      Granted.request⟩
  | elsewhere rest =>
    exact ⟨rfl, (List.append_nil _).symm, rfl, ⟨0, (List.append_nil _).symm⟩,
      fun h => ⟨h.first, h.taken⟩⟩

lemma fed_of_glances (h : Relation.ReflTransGen Glance s s') (hi : s.buffer.count ≤ i) :
    Fed i [] s s' := by
  induction h with
  | refl => exact fed_refl i s
  | tail _ hlast ih => exact ih.trans hi (hlast.fed _)

lemma Glances.ends {α : Type} {x : Proc (Intake τ) α} (hx : Glances x) (hi : s.buffer.count ≤ i) :
    x.Ends s (fun _ s' => Fed i [] s s') fun _ => False :=
  (hx s).imp fun _ _ h => fed_of_glances h hi

/-- A unit came. -/
lemma Fed.produce (h : Fed i [] s s') (u : Word) {b : ReceiveBuffer}
    (hbare : b.bare = s'.buffer.bare.write i u) (hwriter : b.hasWriter = s'.buffer.hasWriter) :
    Fed i [u] s { s' with produced := s'.produced ++ [u], buffer := b } where
  bare := hbare.trans (congrArg (ReceiveBuffer.write · i u) h.bare)
  produced := by rw [h.produced, List.append_nil]
  appends := h.appends
  seen := h.seen
  granted := fun hg => ⟨(h.granted hg).first, hwriter.trans (h.granted hg).taken⟩

lemma ends_fill {next : ℕ → Proc (Intake τ) Word} (hnext : ∀ i, Glances (next i)) {start : ℕ}
    (n : ℕ) (hstart : s.buffer.count ≤ start) :
    (fill bufferCell (fun i => take (next i)) start n 0 0).Ends s
      (fun k s' => k = min n (s.buffer.capacity - start) ∧
        ∃ units : List Word, units.length = n ∧ Fed start units s s')
      fun _ => False := by
  refine ReceiveBuffer.ends_fill (M := fun i stored s' =>
    stored = min i (s.buffer.capacity - start) ∧
      ∃ units : List Word, units.length = i ∧ Fed start units s s') ?_
    ⟨(Nat.zero_min _).symm, [], rfl, fed_refl _ s⟩
  rintro _ - stored s₁ ⟨hstored, units, rfl, h₁⟩
  have hplace : s₁.buffer.count ≤ start + units.length := by
    rw [h₁.count]
    omega
  rw [take, Proc.ends_bind]
  refine ((hnext _).ends hplace).imp fun u s₂ h₂ => ?_
  have hcapacity : s₂.buffer.capacity = s.buffer.capacity := h₂.capacity.trans h₁.capacity
  rw [Proc.ends_bind, Proc.ends_modify, Proc.ends_pure]
  refine ⟨fun hroom => ?_, fun hfull => ?_⟩
  · -- there is room, so every unit before found a place too
    have hroom' : start + stored < s₂.buffer.capacity := hroom
    obtain rfl : stored = units.length := by omega
    refine ⟨by omega, units ++ [u], List.length_append, h₁.trans hstart ?_⟩
    exact h₂.produce u (b := s₂.buffer.write (start + units.length) u) rfl rfl
  · -- the unit is lost, but as good as written to a place that does not exist
    have hfull' : s₂.buffer.capacity ≤ start + stored := hfull
    have hwrite : s₂.buffer.bare.writeFrom (start + units.length) [u] = s₂.buffer.bare :=
      writeFrom_of_capacity_le (show s₂.buffer.capacity ≤ _ by omega)
    refine ⟨by omega, units ++ [u], List.length_append, h₁.trans hstart ?_⟩
    exact h₂.produce u (b := s₂.buffer) hwrite.symm rfl

/-! ### Whole appends -/

/-- Units were produced and the buffer took them. Whoever looked before they were published saw
what was received already. -/
structure Gained (units : List Word) (s s' : Intake τ) : Prop where
  took : s.buffer.Took units s'.buffer
  produced : s'.produced = s.produced ++ units
  appends : s'.appends = s.appends
  seen : ∃ k, s'.seen = s.seen ++ List.replicate k s.buffer.received
  granted : s.Granted → s'.Granted

lemma Fed.gained (h : Fed i [] s s') : Gained [] s s' :=
  { h with took := (took_nil s.buffer).of_bare h.bare }

/-- Those of the units for which there is no place are counted, which may be told, and the others
are published. -/
lemma Fed.publish (h : Fed s.buffer.count units s s') {lost total : ℕ}
    (hlost : lost = s.buffer.dropped + (units.length - (s.buffer.capacity - s.buffer.count)))
    (h' : Fed s.buffer.count [] { s' with buffer := { s'.buffer with dropped := lost } } s'')
    (htotal : total = s.buffer.count + min units.length (s.buffer.capacity - s.buffer.count)) :
    Gained units s { s'' with buffer := { s''.buffer with count := total } } where
  took := by
    refine (s.buffer.took_writeFrom units).of_bare ?_
    show { s''.buffer.bare with count := total } = _
    rw [h'.bare]
    show { s'.buffer.bare with dropped := lost, count := total } = _
    rw [h.bare, ← bare_writeFrom, hlost, htotal]
    rfl
  produced := by rw [h'.produced, List.append_nil, h.produced]
  appends := h'.appends.trans h.appends
  seen := by
    obtain ⟨k, hk⟩ := h.seen
    obtain ⟨l, hl⟩ := h'.seen
    have hsame : ({ s'.buffer with dropped := lost } : ReceiveBuffer).received =
      s.buffer.received := h.received (Nat.le_refl _)
    refine ⟨k + l, ?_⟩
    rw [hl, hk, hsame, List.append_assoc, List.replicate_append_replicate]
  granted := fun hg =>
    have hg' := h'.granted ⟨(h.granted hg).first, (h.granted hg).taken⟩
    ⟨hg'.first, hg'.taken⟩

lemma ends_append {p : Platform (Intake τ)} (hlog : ∀ r, Glances (p.log r))
    {next : ℕ → Proc (Intake τ) Word} (hnext : ∀ i, Glances (next i)) (n : ℕ) :
    (ReceiveBuffer.append p bufferCell n fun i => take (next i)).Ends s
      (fun k s' => k = min n (s.buffer.capacity - s.buffer.count) ∧
        ∃ units : List Word, units.length = n ∧ Gained units s s')
      fun _ => False := by
  rw [ReceiveBuffer.append, Proc.ends_bind, Cell.ends_read, Proc.ends_bind]
  refine (ends_fill hnext n (Nat.le_refl s.buffer.count)).imp ?_
  rintro k s₁ ⟨hk, units, rfl, hfed⟩
  have hdropped : s₁.buffer.dropped = s.buffer.dropped :=
    (congrArg ReceiveBuffer.dropped hfed.bare).trans (writeFrom_dropped _)
  have htotal := congrArg (s.buffer.count + ·) hk
  split
  · next hfull =>
    -- the record of the loss is made before the units are published
    have hlost : s₁.buffer.dropped + (units.length - k) =
        s.buffer.dropped + (units.length - (s.buffer.capacity - s.buffer.count)) := by
      rw [hdropped]; omega
    rw [Proc.ends_bind, Cell.ends_update, Proc.ends_bind]
    refine Proc.Ends.imp (Glances.ends (hlog _) (i := s.buffer.count) hfed.count.le)
      fun _ s₂ htold => ?_
    rw [Proc.ends_bind, Cell.ends_update, Proc.ends_pure]
    exact ⟨hk, units, rfl, hfed.publish hlost htold htotal⟩
  · next hroom =>
    have hlost : s₁.buffer.dropped =
        s.buffer.dropped + (units.length - (s.buffer.capacity - s.buffer.count)) := by
      rw [hdropped]; omega
    rw [Proc.ends_bind, Cell.ends_update, Proc.ends_pure]
    exact ⟨hk, units, rfl, hfed.publish hlost (fed_refl _ s₁) htotal⟩

/-! ### Histories -/

/-- What holds between appends. -/
structure Orderly (w : Width) (N : ℕ) (s : Intake τ) : Prop where
  took : (ReceiveBuffer.new w N).Took s.produced s.buffer
  appends : ∀ a ∈ s.appends, a.calls = a.asked ∧ a.before + a.stored = a.after
  /-- What is received now would be the next thing to see. -/
  seen : (s.seen ++ [s.buffer.received]).Pairwise (· <+: ·)
  granted : s.Granted

variable {w : Width} {N : ℕ}

lemma orderly_fresh (w : Width) (N : ℕ) (rest : τ) : Orderly w N (fresh w N rest) :=
  ⟨took_nil _, nofun, List.pairwise_singleton _ _, ⟨nofun, rfl⟩⟩

/-- A history that begins has everything to come. -/
lemma Orderly.clear (h : Orderly w N s) : Orderly w N s.clear where
  took := ⟨h.took.width, h.took.capacity, by simp [Intake.clear, ReceiveBuffer.clear, new],
    by simp [Intake.clear, ReceiveBuffer.clear, new, received],
    by simp [Intake.clear, ReceiveBuffer.clear, new]⟩
  appends := h.appends
  seen := List.pairwise_singleton _ _
  granted := ⟨nofun, rfl⟩

/-- Looking again at the same, and then at more. -/
lemma pairwise_looks {seen : List (List Word)} {now later : List Word} (k : ℕ)
    (h : (seen ++ [now]).Pairwise (· <+: ·)) (hlater : now <+: later) :
    (seen ++ List.replicate k now ++ [later]).Pairwise (· <+: ·) := by
  rw [List.pairwise_append] at h
  obtain ⟨hseen, -, hnow⟩ := h
  have hseen_now : ∀ l ∈ seen, l <+: now := fun l hl => hnow l hl now (List.mem_singleton_self _)
  rw [List.append_assoc, List.pairwise_append, List.pairwise_append]
  refine ⟨hseen, ⟨?_, List.pairwise_singleton _ _, ?_⟩, ?_⟩
  · exact List.pairwise_replicate.2 (.inr List.prefix_rfl)
  · intro l hl l' hl'
    rw [List.eq_of_mem_replicate hl, List.mem_singleton.1 hl']
    exact hlater
  · intro l hl l' hl'
    rcases List.mem_append.1 hl' with hl' | hl'
    · rw [List.eq_of_mem_replicate hl']
      exact hseen_now l hl
    · rw [List.mem_singleton.1 hl']
      exact (hseen_now l hl).trans hlater

lemma Orderly.gained (h : Orderly w N s) (hgained : Gained units s s') : Orderly w N s' where
  took := by
    rw [hgained.produced]
    exact h.took.trans hgained.took
  appends := by rw [hgained.appends]; exact h.appends
  seen := by
    obtain ⟨k, hk⟩ := hgained.seen
    rw [hk, hgained.took.received]
    exact pairwise_looks k h.seen (List.prefix_append _ _)
  granted := hgained.granted h.granted

/-- Every move returns and keeps the order. -/
lemma ends_perform {p : Platform (Intake τ)} (hlog : ∀ r, Glances (p.log r)) {m : Move τ}
    (hm : m.Proper) (hs : Orderly w N s) :
    (m.perform p).Ends s (fun _ s' => Orderly w N s') fun _ => False := by
  cases m with
  | append n next =>
    rw [Move.perform, Proc.ends_bind, Proc.ends_get, Proc.ends_bind]
    refine (ends_append hlog hm n).imp ?_
    rintro k s' ⟨hk, units, hlength, hgained⟩
    have hs' := hs.gained hgained
    refine (Proc.ends_modify _).2 ⟨hs'.took, fun a ha => ?_, hs'.seen, hs'.granted.first,
      hs'.granted.taken⟩
    rcases List.mem_append.1 ha with ha | ha
    · exact hs'.appends a ha
    · obtain rfl := List.mem_singleton.1 ha
      refine ⟨?_, ?_⟩
      · simp only [hgained.produced, List.length_append, hlength, Nat.add_sub_cancel_left]
      · simp only [hgained.took.count, hk, hlength]
  | aside x =>
    exact (Glances.ends hm (Nat.le_refl s.buffer.count)).imp fun _ _ h => hs.gained h.gained
  | clear => exact (Proc.ends_modify _).2 hs.clear

lemma ends_moves {p : Platform (Intake τ)} (hlog : ∀ r, Glances (p.log r)) {moves : List (Move τ)}
    (hmoves : ∀ m ∈ moves, m.Proper) (hs : Orderly w N s) :
    (moves.forM (Move.perform p)).Ends s (fun _ s' => Orderly w N s') fun _ => False := by
  induction moves generalizing s with
  | nil => exact (Proc.ends_pure ()).2 hs
  | cons m rest ih =>
    refine Proc.ends_bind.2 ?_
    exact (ends_perform hlog (hmoves m List.mem_cons_self) hs).imp fun _ _ h =>
      ih (fun m' hm' => hmoves m' (List.mem_cons_of_mem m hm')) h

/-- **The buffer is a log that only grows.** It holds the first `N` of the units produced since it
was new or last cleared, whatever readers and requests break in and wherever, and counts the others.
Each append takes as many units as it was asked for and returns by how much the count grew. Of two
looks at the buffer the earlier saw the beginning of what the later saw, and of the requests for the
writing end the first one alone is granted. -/
theorem moves_keep_prefix_log {p : Platform (Intake τ)} (hlog : ∀ r, Glances (p.log r)) (w : Width)
    (N : ℕ) (rest : τ) {moves : List (Move τ)} (hmoves : ∀ m ∈ moves, m.Proper) :
    ∃ s, moves.forM (Move.perform p) (fresh w N rest) = .ok () s ∧
      s.buffer.received = (s.produced.take (min N s.produced.length)).map w.cut ∧
      s.buffer.count = s.buffer.received.length ∧
      s.buffer.count + s.buffer.dropped = s.produced.length ∧
      (∀ a ∈ s.appends, a.calls = a.asked ∧ a.before + a.stored = a.after) ∧
      s.seen.Pairwise (· <+: ·) ∧ (∀ l ∈ s.seen, l <+: s.buffer.received) ∧
      ∀ i a, s.answers[i]? = some a → (a = true ↔ i = 0) := by
  obtain ⟨⟨⟩, s, hrun, hs⟩ := (ends_moves hlog hmoves (orderly_fresh w N rest)).returns
  have hreceived := hs.took.received
  have hcount := hs.took.count
  have hdropped := hs.took.dropped
  simp only [new, capacity, received, List.length_replicate, Nat.sub_zero, List.take_zero,
    List.nil_append, Nat.zero_add] at hreceived hcount hdropped
  obtain ⟨hseen, -, hnow⟩ := List.pairwise_append.1 hs.seen
  refine ⟨s, hrun, ?_, ?_, by omega, hs.appends, hseen, fun l hl => ?_, hs.granted.first⟩
  · rw [received, hreceived, ← List.take_eq_take_min]
  · rw [received, hreceived, hcount, List.length_map, List.length_take, Nat.min_comm]
  · exact hnow l hl _ (List.mem_singleton_self _)

/-- A platform whose log records are occasions to look at the buffer. -/
def watchful : Platform (Intake Unit) where
  load _ _ := pure 0#32
  store _ _ _ := pure ()
  log _ := modify look
  patience _ := 0

/-- The writing end is requested, three units are appended with a look before each, and the writing
end is requested again. -/
def watchedAppend : List (Move Unit) :=
  [.aside (modify request), .append 3 fun i => do modify look; return BitVec.ofNat 32 (0x101 + i),
    .aside (modify look), .aside (modify request)]

lemma glances_modify {f : Intake τ → Intake τ} (h : ∀ s, Glance s (f s)) : Glances (modify f) :=
  fun s => (Proc.ends_modify f).2 (.single (h s))

lemma proper_watchedAppend : ∀ m ∈ watchedAppend, m.Proper := by
  simp only [watchedAppend, List.forall_mem_cons, Move.Proper]
  refine ⟨glances_modify .request, fun i => ?_, glances_modify .look, glances_modify .request,
    nofun⟩
  exact (glances_modify .look).bind fun _ => Proc.keeps_pure _

theorem moves_keep_prefix_log_overflow :
    ∃ s, watchedAppend.forM (Move.perform watchful) (fresh .byte 2 ()) = .ok () s ∧
      s.seen = [[], [], [], [], [1#32, 2#32]] ∧ s.buffer.dropped = 1 ∧
      s.answers = [true, false] ∧ s.seen.Pairwise (· <+: ·) ∧
      s.buffer.received = (s.produced.take (min 2 s.produced.length)).map Width.byte.cut := by
  obtain ⟨s, hrun, hreceived, -, -, -, hseen, -, -⟩ :=
    moves_keep_prefix_log (p := watchful) (fun _ => glances_modify .look) .byte 2 ()
      proper_watchedAppend
  obtain ⟨-, rfl⟩ := EStateM.Result.ok.inj hrun
  exact ⟨_, hrun, rfl, rfl, rfl, hseen, hreceived⟩

end Intake

end BoardSupport.ReceiveBuffer
