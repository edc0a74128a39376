import BoardSupport.Proofs.SourceIsolation
import BoardSupport.Proofs.Urgency

/-!
The settings of the interrupt controller as a table.

To a program the controller is a table: for each source how it is configured and whether it is
enabled, and one threshold for all. The controller keeps this in words for the priorities and the
triggers and in bits of shared words, which a call reads and writes back. Still every entry is what
the last call about it gave. `Settings.after` says so without the registers, and `Board.Reflects`
says that a board is set like a table.
-/

namespace BoardSupport

open Controller

/-! ### Calls and settings -/

/-- A call that changes the settings of the controller. -/
inductive SettingCall where
  | source (id : Fin Source.count) (call : SourceCall)
  | threshold (level : Word)

namespace SettingCall

def perform {σ : Type} (p : Platform σ) : SettingCall → Proc σ Unit
  | .source id call => call.perform p (BitVec.ofNat 32 id)
  | .threshold level => setThreshold p level

/-- How the call configures the source, if it does. -/
def config? (id : Fin Source.count) : SettingCall → Option SourceConfig
  | .source j (.configure c) => if id = j then some c else none
  | _ => none

/-- Whether the call enables or disables the source, if it does either. -/
def switch? (id : Fin Source.count) : SettingCall → Option Bool
  | .source j .enable => if id = j then some true else none
  | .source j .disable => if id = j then some false else none
  | _ => none

def level? : SettingCall → Option Word
  | .threshold level => some level
  | _ => none

end SettingCall

open SettingCall

structure Settings where
  config : Fin Source.count → SourceConfig
  enabled : Fin Source.count → Bool
  threshold : Word

/-- Each entry as the last call about it gave it. Without one a source has priority zero, is level
triggered and disabled, and the threshold is zero. -/
def Settings.after (calls : List SettingCall) : Settings where
  config id := (calls.filterMap (config? id)).getLastD {}
  enabled id := (calls.filterMap (switch? id)).getLastD false
  threshold := (calls.filterMap level?).getLastD 0#32

namespace Board

/-- The controller is set like this, and the driver reads the enables so. -/
structure Reflects (b : Board) (s : Settings) : Prop where
  priority : ∀ id : Fin Source.count, b.arbiter.priorityOf id = (s.config id).priority
  trigger : ∀ id : Fin Source.count,
    b.arbiter.triggerOf id = .ok (triggerWord (s.config id).mode)
  enabled : ∀ (id : Fin Source.count) patience,
    isEnabled (Board.platform patience) (BitVec.ofNat 32 id) b = .ok (s.enabled id) b
  threshold : b.arbiter.threshold = s.threshold

/-- Everything but the settings of the controller is as it was. -/
structure SameElsewhere (b b' : Board) : Prop where
  queues : ∀ link, b'.queues link = b.queues link
  raised : b'.arbiter.raised = b.arbiter.raised
  claimed : b'.arbiter.claimed = b.arbiter.claimed
  events : b'.arbiter.events = b.arbiter.events
  console : b'.console = b.console
  scratchWords : b'.scratchWords = b.scratchWords
  memory : b'.memory = b.memory

/-- The controller, as a place on the board. -/
def arbiterCell : Cell Board Arbiter := ⟨Board.arbiter, fun a b => { b with arbiter := a }⟩

lemma arbiterCell_lawful : arbiterCell.Lawful where
  get_put _ _ := rfl
  put_get _ := rfl
  put_put _ _ _ := rfl

end Board

/-! ### One call -/

namespace Controller

variable {b : Board} {id : Word} {patience : ℕ}

lemma setThreshold_board (level : Word) :
    setThreshold (Board.platform patience) level b =
      .ok () { b with arbiter := { b.arbiter with threshold := level } } := by
  have hlt : SystemRegister.threshold < MemoryMap.blockSize := by decide
  have hwrite : b.arbiter.write? SystemRegister.threshold level =
      some { b.arbiter with threshold := level } := rfl
  refine (Proc.bind_of_ok rfl).trans ?_
  rw [write_eq _ hlt]
  exact congrArg (EStateM.Result.ok ()) (Board.store_system hlt hwrite)

lemma isEnabled_board (hid : id.toNat < Source.count) :
    isEnabled (Board.platform patience) id b = .ok (b.arbiter.isEnabled id.toNat) b :=
  getBit_board hid (load_enables hid) (enable_lt (word_lt hid))

end Controller

/-- The two words that a source has from its configuration. -/
def SourceConfig.words (c : SourceConfig) : Word × Except Fault Word :=
  (c.priority, .ok (triggerWord c.mode))

namespace Arbiter

def words (a : Arbiter) (id : ℕ) : Word × Except Fault Word := (a.priorityOf id, a.triggerOf id)

lemma words_setSource {id : ℕ} (h : id < Source.count) (a : Arbiter) (c : SourceConfig) (j : ℕ) :
    (a.setSource id c.priority (triggerWord c.mode)).words j =
      if j = id then c.words else a.words j := by
  split
  next hj =>
    subst hj
    exact Prod.ext (priorityOf_setSource h _ _) (triggerOf_setSource h _ _)
  next hj =>
    exact Prod.ext (priorityOf_setSource_of_ne hj _ _) (triggerOf_setSource_of_ne hj _ _)

/-- The requests, the claims and the claim protocol, which are no settings. -/
def claimState (a : Arbiter) : BitVec 64 × BitVec 64 × List ClaimEvent :=
  (a.raised, a.claimed, a.events)

lemma words_default (id : Fin Source.count) :
    ({} : Arbiter).words id = ({} : SourceConfig).words := by
  simp [words, priorityOf, triggerOf, SourceConfig.words, triggerWord]

lemma isEnabled_default (id : ℕ) : ({} : Arbiter).isEnabled id = false := by
  simp only [isEnabled, Vector.getElem?_replicate]
  split <;> simp

end Arbiter

namespace SettingCall

/-- The controller after the call. -/
def update (a : Arbiter) : SettingCall → Arbiter
  | .source id call => call.update a id
  | .threshold level => { a with threshold := level }

lemma perform_board (call : SettingCall) (patience : ℕ) (b : Board) :
    call.perform (Board.platform patience) b =
      .ok () { b with arbiter := call.update b.arbiter } := by
  cases call with
  | source id call =>
    have hupdate := call.perform_update (Source.ofNat_lt id.isLt) patience b
    rwa [Source.toNat_ofNat id.isLt] at hupdate
  | threshold level => exact setThreshold_board level

-- Each setting is given by the call or left alone. For the enables this is about single bits, since
-- a switch of one source writes the word of all its neighbours.

lemma isEnabled_update (id : Fin Source.count) (a : Arbiter) (call : SettingCall) :
    (call.update a).isEnabled id = (call.switch? id).getD (a.isEnabled id) := by
  rcases call with ⟨j, c | _ | _⟩ | level
  · rfl
  · rw [update, SourceCall.update, Arbiter.isEnabled_switch j.isLt, switch?]
    by_cases hj : id = j <;> simp [hj, Fin.val_inj]
  · rw [update, SourceCall.update, Arbiter.isEnabled_switch j.isLt, switch?]
    by_cases hj : id = j <;> simp [hj, Fin.val_inj]
  · rfl

lemma words_update (id : Fin Source.count) (a : Arbiter) (call : SettingCall) :
    (call.update a).words id = ((call.config? id).map SourceConfig.words).getD (a.words id) := by
  rcases call with ⟨j, c | _ | _⟩ | level
  · rw [update, SourceCall.update, Arbiter.words_setSource j.isLt, config?]
    by_cases hj : id = j <;> simp [hj, Fin.val_inj]
  · rfl
  · rfl
  · rfl

lemma threshold_update (a : Arbiter) (call : SettingCall) :
    (call.update a).threshold = call.level?.getD a.threshold := by
  rcases call with ⟨j, c | _ | _⟩ | level <;> rfl

lemma claimState_update (a : Arbiter) (call : SettingCall) :
    (call.update a).claimState = a.claimState := by
  rcases call with ⟨j, c | _ | _⟩ | level <;> rfl

/-! ### Any number of calls -/

/-- The controller after the calls. -/
def updates (calls : List SettingCall) (a : Arbiter) : Arbiter := calls.foldl update a

lemma forM_perform_board (calls : List SettingCall) (patience : ℕ) (b : Board) :
    calls.forM (perform (Board.platform patience)) b =
      .ok () { b with arbiter := updates calls b.arbiter } :=
  Board.arbiterCell_lawful.forM_of_update (fun call b => perform_board call patience b) calls b

lemma isEnabled_updates (calls : List SettingCall) (id : Fin Source.count) :
    (updates calls {}).isEnabled id = (Settings.after calls).enabled id := by
  have hlast := foldl_eq_last (Arbiter.isEnabled · id) (isEnabled_update id) calls {}
  rw [Arbiter.isEnabled_default] at hlast
  exact hlast

lemma words_updates (calls : List SettingCall) (id : Fin Source.count) :
    (updates calls {}).words id = ((Settings.after calls).config id).words := by
  have hlast := foldl_eq_last (Arbiter.words · id) (words_update id) calls {}
  rw [← List.map_filterMap, Arbiter.words_default, List.getLastD_map] at hlast
  exact hlast

lemma reflects_updates (calls : List SettingCall) :
    ({ Board.new with arbiter := updates calls {} } : Board).Reflects (Settings.after calls) where
  priority id := congrArg Prod.fst (words_updates calls id)
  trigger id := congrArg Prod.snd (words_updates calls id)
  enabled id patience := by
    rw [isEnabled_board (Source.ofNat_lt id.isLt), Source.toNat_ofNat id.isLt]
    exact congrArg (EStateM.Result.ok · _) (isEnabled_updates calls id)
  threshold := foldl_eq_last Arbiter.threshold threshold_update calls {}

lemma sameElsewhere_updates (calls : List SettingCall) (b : Board) :
    b.SameElsewhere { b with arbiter := updates calls b.arbiter } := by
  have hkept := foldl_kept Arbiter.claimState claimState_update calls b.arbiter
  exact {
    queues := Board.queues_arbiter b _
    raised := congrArg Prod.fst hkept
    claimed := congrArg (·.2.1) hkept
    events := congrArg (·.2.2) hkept
    console := rfl
    scratchWords := rfl
    memory := rfl }

/-- **The controller is a table.** On a fresh board every sequence of calls returns. Afterwards the
driver tells a source to be enabled exactly if the last call to enable or disable it did enable it,
its priority and its trigger are those of its last configuration, and the threshold is the last one
set. The queues, the requests, the claims and their protocol, the console and the memory are as
they were. -/
theorem calls_refine_settings (calls : List SettingCall) (patience : ℕ) :
    ∃ b', calls.forM (perform (Board.platform patience)) Board.new = .ok () b' ∧
      b'.Reflects (Settings.after calls) ∧ Board.new.SameElsewhere b' :=
  ⟨_, forM_perform_board calls patience Board.new, reflects_updates calls,
    sameElsewhere_updates calls Board.new⟩

/-- Two sources whose enables share a word. The one that is enabled and disabled again and then
configured leaves the other one enabled. -/
theorem calls_refine_settings_neighbours :
    ∃ b', [source ⟨33, by decide⟩ .enable, source ⟨34, by decide⟩ .enable,
        source ⟨34, by decide⟩ .disable,
        source ⟨34, by decide⟩ (.configure { priority := 5#32, mode := .edge }),
        threshold 2#32].forM (perform (Board.platform 0)) Board.new = .ok () b' ∧
      isEnabled (Board.platform 0) 33#32 b' = .ok true b' ∧
      isEnabled (Board.platform 0) 34#32 b' = .ok false b' ∧
      b'.arbiter.priorityOf 33 = 0#32 ∧ b'.arbiter.priorityOf 34 = 5#32 ∧
      b'.arbiter.triggerOf 34 = .ok 1#32 ∧ b'.arbiter.threshold = 2#32 ∧
      b'.memory = Board.new.memory := by
  obtain ⟨b', hrun, hsettings, hsame⟩ := calls_refine_settings
    [source ⟨33, by decide⟩ .enable, source ⟨34, by decide⟩ .enable, source ⟨34, by decide⟩ .disable,
      source ⟨34, by decide⟩ (.configure { priority := 5#32, mode := .edge }), threshold 2#32] 0
  exact ⟨b', hrun, hsettings.enabled ⟨33, by decide⟩ 0, hsettings.enabled ⟨34, by decide⟩ 0,
    hsettings.priority ⟨33, by decide⟩, hsettings.priority ⟨34, by decide⟩,
    hsettings.trigger ⟨34, by decide⟩, hsettings.threshold, hsame.memory⟩

end SettingCall

end BoardSupport
