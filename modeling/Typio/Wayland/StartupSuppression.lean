import Mathlib.Data.Finset.Card
import Typio.Machine
import Typio.Wayland.Edits

/-!
# The count of suppressed keys

While a new grab starts, the press of a key which was held before is suppressed.  The tracker
records the key, and the keyboard counts it until it is released.  A key beyond the tracked range
is counted and not recorded.
-/

namespace Typio

namespace KeyTracking

/-- The keys which are recorded as suppressed. -/
def suppressedKeys (tracking : KeyTracking) : Finset (Fin maxTrackedKeys) :=
  Finset.univ.filter fun key => tracking.states key = .suppressedStartup

variable {tracking : KeyTracking} {key : Nat}

theorem mem_suppressedKeys {key : Fin maxTrackedKeys} :
    key ∈ tracking.suppressedKeys ↔ tracking.states key = .suppressedStartup := by
  simp [suppressedKeys]

theorem suppressedKeys_congr {after : KeyTracking} (states : after.states = tracking.states) :
    after.suppressedKeys = tracking.suppressedKeys := by
  rw [suppressedKeys, suppressedKeys, states]

theorem suppressedKeys_reset : tracking.reset.suppressedKeys = ∅ := by
  simp [suppressedKeys, reset]

theorem clearTracking_suppressedKeys :
    (tracking.clearTracking key).suppressedKeys = (tracking.setState key .idle).suppressedKeys := by
  refine suppressedKeys_congr ?_
  unfold clearTracking setGeneration
  split <;> rfl

/-- What is recorded of the other keys stays. -/
theorem mem_suppressedKeys_setState (tracked : key < maxTrackedKeys) {state : KeyTrackState}
    {other : Fin maxTrackedKeys} :
    other ∈ (tracking.setState key state).suppressedKeys ↔
      if other = ⟨key, tracked⟩ then state = .suppressedStartup
      else other ∈ tracking.suppressedKeys := by
  simp only [mem_suppressedKeys, setState, tracked, dif_pos, Function.update_apply]
  split <;> rfl

theorem mem_suppressedKeys_iff (tracked : key < maxTrackedKeys) :
    (⟨key, tracked⟩ : Fin maxTrackedKeys) ∈ tracking.suppressedKeys ↔
      tracking.getState key = .suppressedStartup := by
  rw [mem_suppressedKeys, getState, dif_pos tracked]

/-- A route which is no suppression replaces one which was none. -/
theorem suppressedKeys_setState (before : tracking.getState key ≠ .suppressedStartup)
    {state : KeyTrackState} (after : state ≠ .suppressedStartup) :
    (tracking.setState key state).suppressedKeys = tracking.suppressedKeys := by
  by_cases tracked : key < maxTrackedKeys
  · refine Finset.ext fun other => ?_
    rw [mem_suppressedKeys_setState tracked]
    split
    · next same => rw [same, mem_suppressedKeys_iff tracked, iff_false_left after]; exact before
    · exact Iff.rfl
  · rw [setState, dif_neg tracked]

/-- A tracked key which was not suppressed is recorded. -/
theorem card_suppress (tracked : key < maxTrackedKeys)
    (before : tracking.getState key ≠ .suppressedStartup) :
    (tracking.setState key .suppressedStartup).suppressedKeys.card =
      tracking.suppressedKeys.card + 1 := by
  have fresh : (⟨key, tracked⟩ : Fin maxTrackedKeys) ∉ tracking.suppressedKeys :=
    (mem_suppressedKeys_iff tracked).not.mpr before
  rw [← Finset.card_insert_of_notMem fresh]
  refine congrArg Finset.card (Finset.ext fun other => ?_)
  rw [mem_suppressedKeys_setState tracked, Finset.mem_insert]
  split <;> simp_all

/-- A suppressed key which is released is no longer recorded. -/
theorem card_release (before : tracking.getState key = .suppressedStartup) :
    (tracking.clearTracking key).suppressedKeys.card + 1 = tracking.suppressedKeys.card := by
  have busy : tracking.getState key ≠ .idle := by
    rw [before]
    nofun
  have tracked := tracked_of_getState_ne busy
  rw [← mem_suppressedKeys_iff tracked] at before
  rw [← Finset.card_erase_add_one before, clearTracking_suppressedKeys]
  refine congrArg (Finset.card · + 1) (Finset.ext fun other => ?_)
  rw [mem_suppressedKeys_setState tracked, Finset.mem_erase]
  split <;> simp_all

theorem suppressedKeys_clearTracking (before : tracking.getState key ≠ .suppressedStartup) :
    (tracking.clearTracking key).suppressedKeys = tracking.suppressedKeys := by
  have idle : KeyTrackState.idle ≠ .suppressedStartup := nofun
  rw [clearTracking_suppressedKeys, suppressedKeys_setState before idle]

end KeyTracking

namespace Frontend

/-- The keyboard, if there is one, counts the keys which are recorded as suppressed. -/
def CountsSuppressed (frontend : Frontend) : Prop :=
  ∀ keyboard ∈ frontend.keyboard,
    keyboard.startupSuppressedCount = frontend.tracking.suppressedKeys.card

instance : DecidablePred CountsSuppressed := fun frontend =>
  inferInstanceAs (Decidable (∀ keyboard ∈ frontend.keyboard,
    keyboard.startupSuppressedCount = frontend.tracking.suppressedKeys.card))

end Frontend

/-- Neither the count nor the recorded keys change. -/
structure SuppressionKept (before after : Frontend) : Prop where
  counts : after.keyboard.map Keyboard.startupSuppressedCount =
    before.keyboard.map Keyboard.startupSuppressedCount
  suppressed : after.tracking.suppressedKeys = before.tracking.suppressedKeys

@[simp] theorem Keyboard.endSuppression_startupSuppressedCount (keyboard : Keyboard) :
    keyboard.endSuppression.startupSuppressedCount = keyboard.startupSuppressedCount := by
  unfold endSuppression
  split <;> rfl

namespace SuppressionKept

variable {first second third before after : Frontend}

theorem of_same (keyboard : after.keyboard = before.keyboard)
    (tracking : after.tracking.states = before.tracking.states) :
    SuppressionKept before after where
  counts := by rw [keyboard]
  suppressed := KeyTracking.suppressedKeys_congr tracking

theorem refl (frontend : Frontend) : SuppressionKept frontend frontend := of_same rfl rfl

theorem trans (left : SuppressionKept first second) (right : SuppressionKept second third) :
    SuppressionKept first third where
  counts := right.counts.trans left.counts
  suppressed := right.suppressed.trans left.suppressed

theorem countsSuppressed_iff (kept : SuppressionKept before after) :
    after.CountsSuppressed ↔ before.CountsSuppressed := by
  have counts := kept.counts
  unfold Frontend.CountsSuppressed
  rw [kept.suppressed]
  cases earlier : before.keyboard <;> cases later : after.keyboard <;> simp_all

/-- A key which is not recorded stays so. -/
theorem routed (kept : SuppressionKept before after) {key : Nat}
    (free : before.tracking.getState key ≠ .suppressedStartup) :
    after.tracking.getState key ≠ .suppressedStartup := by
  by_cases tracked : key < maxTrackedKeys
  · rw [ne_eq, ← KeyTracking.mem_suppressedKeys_iff tracked] at free ⊢
    rw [kept.suppressed]
    exact free
  · rw [KeyTracking.getState_of_untracked _ (Nat.not_lt.mp tracked)]
    nofun

theorem updateKeyboard {update : Keyboard → Keyboard}
    (counts : ∀ keyboard, (update keyboard).startupSuppressedCount =
      keyboard.startupSuppressedCount) :
    SuppressionKept before (before.updateKeyboard update) where
  counts := by
    rw [Frontend.updateKeyboard_keyboard, Option.map_map]
    exact congrArg (Option.map · _) (funext counts)
  suppressed := rfl

theorem of_text (text : TextFrame first second) : SuppressionKept first second := by
  rw [text.frame]
  exact of_same rfl rfl

theorem releaseGrab (frontend : Frontend) : SuppressionKept frontend frontend.releaseGrab := by
  unfold Frontend.releaseGrab
  split
  · exact refl frontend
  · split
    · exact (of_same rfl rfl : SuppressionKept frontend (frontend.log .releaseGrab)).trans
        (updateKeyboard fun _ => rfl)
    · exact refl frontend

theorem vkTriggerFailSafe (frontend : Frontend) :
    SuppressionKept frontend frontend.vkTriggerFailSafe := by
  unfold Frontend.vkTriggerFailSafe
  split
  · exact (releaseGrab frontend).trans (of_same rfl rfl)
  · exact refl frontend

theorem whenVkReady {frontend : Frontend} {send : Frontend → Frontend}
    (sends : ∀ ready, SuppressionKept ready (send ready)) :
    SuppressionKept frontend (frontend.whenVkReady send) := by
  have upgraded : SuppressionKept frontend frontend.vkUpgrade := by
    rw [Frontend.vkUpgrade_eq]
    exact of_same rfl rfl
  unfold Frontend.whenVkReady
  dsimp only
  split
  · exact upgraded.trans (sends _)
  · split
    · exact upgraded.trans (vkTriggerFailSafe _)
    · exact upgraded

theorem vkForwardKey (frontend : Frontend) (time key : Nat) (pressed : Bool) :
    SuppressionKept frontend (frontend.vkForwardKey time key pressed) :=
  whenVkReady fun _ => of_same rfl rfl

theorem vkForwardModifiers (frontend : Frontend) (depressed latched locked group : UInt32) :
    SuppressionKept frontend (frontend.vkForwardModifiers depressed latched locked group) :=
  whenVkReady fun _ => of_same rfl rfl

theorem setKeyState (frontend : Frontend) {key : Nat}
    (before : frontend.tracking.getState key ≠ .suppressedStartup) {state : KeyTrackState}
    (after : state ≠ .suppressedStartup) :
    SuppressionKept frontend (frontend.setKeyState key state) :=
  ⟨rfl, KeyTracking.suppressedKeys_setState before after⟩

theorem clearKeyTracking (frontend : Frontend) {key : Nat}
    (before : frontend.tracking.getState key ≠ .suppressedStartup) :
    SuppressionKept frontend (frontend.clearKeyTracking key) :=
  ⟨rfl, KeyTracking.suppressedKeys_clearTracking before⟩

theorem processKey (engine : Engine) (frontend : Frontend) (event : KeyEvent) (isRepeat : Bool) :
    SuppressionKept frontend (frontend.processKey engine event isRepeat).2 := by
  unfold Frontend.processKey
  split
  · exact (of_same rfl rfl : SuppressionKept frontend
      (frontend.log (.engineKey event isRepeat))).trans (of_text (TextFrame.callEngine engine _))
  · exact refl frontend

/-- The key is forwarded, and recorded with another route. -/
theorem forwardAs {frontend : Frontend} {event : KeyEvent}
    (free : frontend.tracking.getState event.key ≠ .suppressedStartup) {state : KeyTrackState}
    (route : state ≠ .suppressedStartup) :
    SuppressionKept frontend
      ((frontend.vkForwardKey event.time event.key true).setKeyState event.key state) := by
  have forwarded := vkForwardKey frontend event.time event.key true
  exact forwarded.trans (setKeyState _ (forwarded.routed free) route)

section Engine

variable (engine : Engine) {frontend : Frontend} {event : KeyEvent}

theorem offerPress (free : frontend.tracking.getState event.key ≠ .suppressedStartup) :
    SuppressionKept frontend (frontend.offerPress engine event) := by
  have asked := processKey engine frontend event false
  unfold Frontend.offerPress
  dsimp only
  split
  · exact asked
  · split
    · exact asked.trans (forwardAs (asked.routed free) (by decide))
    · exact asked

theorem classifyPress (free : frontend.tracking.getState event.key ≠ .suppressedStartup) :
    SuppressionKept frontend (frontend.classifyPress engine event) := by
  unfold Frontend.classifyPress
  split
  · exact (releaseGrab frontend).trans (of_same rfl rfl)
  · split
    · have logged : SuppressionKept frontend (frontend.log .voiceStart) := of_same rfl rfl
      exact logged.trans (setKeyState _ (logged.routed free) (by decide))
    · have recorded : SuppressionKept frontend
          (frontend.setKeyState event.key .voicePttUnavail) := setKeyState _ free (by decide)
      exact recorded.trans (of_same rfl rfl)
  · split
    · exact forwardAs free (by decide)
    · split
      · exact forwardAs free (by decide)
      · exact offerPress engine free

theorem endSuppression (frontend : Frontend) :
    SuppressionKept frontend (frontend.updateKeyboard Keyboard.endSuppression) :=
  updateKeyboard fun keyboard => keyboard.endSuppression_startupSuppressedCount

theorem releaseIdle (keyboard : Keyboard)
    (free : frontend.tracking.getState event.key ≠ .suppressedStartup) :
    SuppressionKept frontend (frontend.releaseIdle engine keyboard event) := by
  unfold Frontend.releaseIdle
  split
  · split
    · have forwarded := vkForwardKey frontend event.time event.key false
      exact forwarded.trans (clearKeyTracking _ (forwarded.routed free))
    · exact clearKeyTracking frontend free
  · have asked := (endSuppression frontend).trans (processKey engine _ event false)
    exact asked.trans (clearKeyTracking _ (asked.routed free))

theorem releaseForwarded (free : frontend.tracking.getState event.key ≠ .suppressedStartup) :
    SuppressionKept frontend (frontend.releaseForwarded engine event) := by
  have asked := (clearKeyTracking frontend free).trans (processKey engine _ event false)
  unfold Frontend.releaseForwarded
  dsimp only
  split
  · exact asked.trans (clearKeyTracking _ (asked.routed free))
  · exact asked.trans (vkForwardKey ..)

theorem repeatStop (frontend : Frontend) : SuppressionKept frontend frontend.repeatStop :=
  updateKeyboard fun _ => rfl

theorem repeatAfterPress (frontend : Frontend) (event : KeyEvent) :
    SuppressionKept frontend (frontend.repeatAfterPress event) := by
  unfold Frontend.repeatAfterPress
  split
  · exact refl frontend
  · split
    · refine updateKeyboard fun keyboard => ?_
      split <;> rfl
    · exact refl frontend

theorem repeatBeforeRelease (frontend : Frontend) (key : Nat) :
    SuppressionKept frontend (frontend.repeatBeforeRelease key) := by
  unfold Frontend.repeatBeforeRelease
  split
  · exact repeatStop frontend
  · exact refl frontend

theorem deliverRepeat (frontend : Frontend) (keyboard : Keyboard) (event : KeyEvent) :
    SuppressionKept frontend (frontend.deliverRepeat engine keyboard event) := by
  unfold Frontend.deliverRepeat
  split
  · split
    · exact vkForwardKey ..
    · exact repeatStop frontend
  · exact vkForwardKey ..
  · exact vkForwardKey ..
  · next state _ _ _ =>
      split
      · next runs =>
          have free : frontend.tracking.getState event.key ≠ .suppressedStartup := by
            intro suppressed
            rw [suppressed] at runs
            cases runs
          have asked := processKey engine frontend event true
          unfold Frontend.offerRepeat
          dsimp only
          split
          · exact asked
          · split
            · exact asked
            · exact asked.trans (forwardAs (asked.routed free) (by decide))
      · exact repeatStop frontend

theorem dispatchRepeat (frontend : Frontend) (expired : Bool) (keysym : Keysym)
    (unicode : UInt32) (xkbModifiers : Modifiers) :
    SuppressionKept frontend
      (frontend.dispatchRepeat engine expired keysym unicode xkbModifiers) := by
  unfold Frontend.dispatchRepeat
  split
  · exact refl frontend
  · repeat' split
    all_goals first
      | exact refl frontend
      | exact repeatStop frontend
      | exact deliverRepeat engine frontend _ _

theorem onModifiers (frontend : Frontend) (depressed latched locked group : UInt32)
    (previous current : Modifiers) :
    SuppressionKept frontend
      (frontend.onModifiers depressed latched locked group previous current) := by
  unfold Frontend.onModifiers
  split
  · exact refl frontend
  · refine .trans ?_ (vkForwardModifiers _ depressed latched locked group)
    refine .trans ?_ (updateKeyboard fun _ => rfl)
    refine updateKeyboard fun keyboard => ?_
    split <;> rfl

end Engine

theorem vkExpectKeymap (frontend : Frontend) :
    SuppressionKept frontend frontend.vkExpectKeymap := by
  unfold Frontend.vkExpectKeymap
  split
  · exact refl frontend
  · exact of_same rfl rfl

theorem onKeymap (frontend : Frontend) (loaded : Option Xkb) :
    SuppressionKept frontend (frontend.onKeymap loaded) := by
  have forwarded : SuppressionKept frontend frontend.vkForwardKeymap := by
    unfold Frontend.vkForwardKeymap
    repeat' split
    · exact refl frontend
    · exact of_same rfl rfl
    · exact of_same rfl rfl
  unfold Frontend.onKeymap
  split
  · exact refl frontend
  · exact forwarded.trans (updateKeyboard fun _ => rfl)

end SuppressionKept

namespace Frontend

/-! ## Presses and releases -/

/-- The startup guard suppresses the press of a key beyond the tracked range. -/
def SuppressesUntracked (frontend : Frontend) (event : KeyEvent) : Prop :=
  maxTrackedKeys ≤ event.key ∧ ∃ keyboard ∈ frontend.keyboard,
    startupSuppressesPress keyboard.createdAtEpoch frontend.dispatchEpoch
      keyboard.suppressStaleKeys = true

theorem countsSuppressed_iff {frontend : Frontend} {keyboard : Keyboard}
    (routed : frontend.keyboard = some keyboard) : frontend.CountsSuppressed ↔
      keyboard.startupSuppressedCount = frontend.tracking.suppressedKeys.card := by
  simp [CountsSuppressed, routed]

theorem countsSuppressed_of_none {frontend : Frontend} (gone : frontend.keyboard = none) :
    frontend.CountsSuppressed := by
  simp [CountsSuppressed, gone]

/-- The record and the keyboard change. -/
theorem countsSuppressed_update {frontend : Frontend} {keyboard : Keyboard}
    (routed : frontend.keyboard = some keyboard) (track : KeyTracking → KeyTracking)
    (update : Keyboard → Keyboard) :
    ((frontend.updateTracking track).updateKeyboard update).CountsSuppressed ↔
      (update keyboard).startupSuppressedCount = (track frontend.tracking).suppressedKeys.card :=
  countsSuppressed_iff (by simp [routed])

section Engine

variable (engine : Engine) {frontend : Frontend} {event : KeyEvent} {keyboard : Keyboard}

theorem claim_kept (frontend : Frontend) (key : Nat) :
    SuppressionKept frontend (frontend.updateTracking (·.claimCurrentGeneration key)) := by
  refine .of_same rfl ?_
  change (KeyTracking.claimCurrentGeneration frontend.tracking key).states = _
  unfold KeyTracking.claimCurrentGeneration KeyTracking.setGeneration
  split <;> rfl

/-- A press which is routed keeps the count right unless it is that of an untracked key which is
suppressed. -/
theorem routePress_counts (routed : frontend.keyboard = some keyboard)
    (free : frontend.tracking.getState event.key ≠ .suppressedStartup)
    (counts : frontend.CountsSuppressed) :
    (frontend.routePress engine keyboard event).CountsSuppressed ↔
      ¬ frontend.SuppressesUntracked event := by
  have claims := claim_kept frontend event.key
  have claimed := claims.countsSuppressed_iff.mpr counts
  have claimed_free := claims.routed free
  have suppresses_iff : frontend.SuppressesUntracked event ↔ maxTrackedKeys ≤ event.key ∧
      startupSuppressesPress keyboard.createdAtEpoch frontend.dispatchEpoch
        keyboard.suppressStaleKeys = true := by
    simp [SuppressesUntracked, routed]
  have taken_routed : (frontend.updateTracking
    (·.claimCurrentGeneration event.key)).keyboard = some keyboard := routed
  rw [suppresses_iff]
  unfold routePress
  dsimp only
  split
  · next suppressed =>
      change startupSuppressesPress keyboard.createdAtEpoch frontend.dispatchEpoch _ = true
        at suppressed
      refine (countsSuppressed_update taken_routed
        (·.setState event.key .suppressedStartup) _).trans ?_
      rw [and_iff_left suppressed, Nat.not_le]
      rw [countsSuppressed_iff taken_routed] at claimed
      dsimp only
      obtain tracked | untracked := Nat.lt_or_ge event.key maxTrackedKeys
      · exact iff_of_true (by rw [KeyTracking.card_suppress tracked claimed_free, claimed]) tracked
      · have ignored := Nat.not_lt.mpr untracked
        rw [KeyTracking.setState, dif_neg ignored]
        exact iff_of_false (by omega) ignored
  · next passes =>
      have ended := claims.trans (SuppressionKept.endSuppression _)
      have kept := ended.trans (SuppressionKept.classifyPress engine (ended.routed free))
      exact iff_of_true (kept.countsSuppressed_iff.mpr counts) fun both => passes both.2

/-- A press keeps the count right unless it is that of an untracked key which is suppressed. -/
theorem processPress_counts (counts : frontend.CountsSuppressed) :
    (frontend.processPress engine event).CountsSuppressed ↔
      ¬ frontend.SuppressesUntracked event := by
  have latched {after : Frontend} (kept : SuppressionKept frontend after)
      (busy : frontend.tracking.getState event.key ≠ .idle) :
      after.CountsSuppressed ↔ ¬ frontend.SuppressesUntracked event :=
    iff_of_true (kept.countsSuppressed_iff.mpr counts) fun ⟨untracked, _⟩ =>
      busy (KeyTracking.getState_of_untracked _ untracked)
  cases routed : frontend.keyboard with
  | none =>
      rw [processPress, routed]
      exact iff_of_true counts fun ⟨_, keyboard, member, _⟩ => by simp [routed] at member
  | some keyboard =>
      rw [processPress, routed]
      dsimp only
      cases state : frontend.tracking.getState event.key with
      | releasedPending => exact latched (.refl frontend) (by simp [state])
      | suppressedStartup => exact latched (.refl frontend) (by simp [state])
      | appShortcut =>
          dsimp only
          split
          · exact latched (.vkForwardKey ..) (by simp [state])
          · exact latched (.refl frontend) (by simp [state])
      | forwarded => exact latched (.vkForwardKey ..) (by simp [state])
      | idle => exact routePress_counts engine routed (by simp [state]) counts
      | basicPassthrough => exact routePress_counts engine routed (by simp [state]) counts
      | voicePtt => exact routePress_counts engine routed (by simp [state]) counts
      | voicePttUnavail => exact routePress_counts engine routed (by simp [state]) counts

theorem processRelease_counts (counts : frontend.CountsSuppressed) (event : KeyEvent) :
    (frontend.processRelease engine event).CountsSuppressed := by
  have other {after : Frontend} (kept : SuppressionKept frontend after) :
      after.CountsSuppressed := kept.countsSuppressed_iff.mpr counts
  cases routed : frontend.keyboard with
  | none =>
      rw [processRelease, routed]
      exact counts
  | some keyboard =>
      rw [processRelease, routed]
      dsimp only
      cases state : frontend.tracking.getState event.key with
      | suppressedStartup =>
          refine (SuppressionKept.vkForwardKey ..).countsSuppressed_iff.mpr ?_
          have released := KeyTracking.card_release state
          rw [countsSuppressed_iff routed] at counts
          refine (countsSuppressed_update routed (·.clearTracking event.key) _).mpr ?_
          rw [Keyboard.endSuppression_startupSuppressedCount]
          dsimp only
          omega
      | releasedPending => exact other (.clearKeyTracking _ (by simp [state]))
      | appShortcut =>
          exact other ((SuppressionKept.clearKeyTracking _ (by simp [state])).trans
            (.vkForwardKey ..))
      | basicPassthrough =>
          exact other ((SuppressionKept.clearKeyTracking _ (by simp [state])).trans
            (.vkForwardKey ..))
      | voicePtt =>
          have logged : SuppressionKept frontend (frontend.log .voiceStop) := .of_same rfl rfl
          exact other (logged.trans (.clearKeyTracking _ (logged.routed (by simp [state]))))
      | voicePttUnavail =>
          have logged : SuppressionKept frontend (frontend.log (.popup .hideStatus)) :=
            .of_same rfl rfl
          exact other (logged.trans (.clearKeyTracking _ (logged.routed (by simp [state]))))
      | forwarded => exact other (.releaseForwarded engine (by simp [state]))
      | idle => exact other (.releaseIdle engine keyboard (by simp [state]))

end Engine

/-! ## Resets -/

theorem hardResetKeyboard_counts (frontend : Frontend) :
    frontend.hardResetKeyboard.CountsSuppressed :=
  countsSuppressed_of_none (KeyboardEdits.hardResetKeyboard_gone frontend)

theorem scrubKeyboard_counts (frontend : Frontend) : frontend.scrubKeyboard.CountsSuppressed := by
  have gone : (frontend.hardResetKeyboard.vkResetModifiers.setCarriedVkModifiers
      false).keyboard = none := by
    rw [setCarriedVkModifiers_keyboard]
    exact KeyboardEdits.vkResetModifiers_gone _ (KeyboardEdits.hardResetKeyboard_gone frontend)
  refine countsSuppressed_of_none ?_
  simpa [scrubKeyboard, bumpKeyGeneration] using gone

/-- A new keyboard counts no key, and none is recorded. -/
theorem keyboardCreate_suppressed {frontend : Frontend} {keyboard : Keyboard}
    (created : frontend.keyboardCreate.1 = some keyboard) :
    keyboard.startupSuppressedCount = frontend.keyboardCreate.2.tracking.suppressedKeys.card := by
  obtain ⟨createdAtEpoch, repeatTimer, rfl⟩ := KeyboardEdits.keyboardCreate_fresh created
  unfold keyboardCreate at created ⊢
  split
  · next refused => simp [refused] at created
  · dsimp only
    have none_suppressed (tracking : KeyTracking) : tracking.reset.suppressedKeys.card = 0 := by
      rw [KeyTracking.suppressedKeys_reset, Finset.card_empty]
    split
    · exact (none_suppressed _).symm
    · exact (none_suppressed _).symm

theorem rebuildKeyboardGrab_counts (frontend : Frontend) :
    frontend.rebuildKeyboardGrab.2.CountsSuppressed := by
  unfold rebuildKeyboardGrab
  dsimp only
  cases created_eq : frontend.hardResetKeyboard.keyboardCreate with
  | mk created after =>
      cases created with
      | none => exact countsSuppressed_of_none rfl
      | some keyboard =>
          have counts := keyboardCreate_suppressed (congrArg Prod.fst created_eq)
          rw [created_eq] at counts
          have grabbed : (after.setKeyboard (some keyboard)).CountsSuppressed :=
            (countsSuppressed_iff rfl).mpr counts
          have expecting := (SuppressionKept.vkExpectKeymap _).countsSuppressed_iff.mpr grabbed
          cases frontend.keyboard.isSome with
          | true => exact expecting
          | false =>
              have accepts (frontend : Frontend) : SuppressionKept frontend
                  (frontend.updateKeyboard fun keyboard =>
                    { keyboard with suppressStaleKeys := false }) :=
                .updateKeyboard fun _ => rfl
              exact (accepts _).countsSuppressed_iff.mpr expecting

end Frontend

/-! ## Runs -/

/-- What reaches the router, what resets it, and what changes around it between two events. -/
inductive SuppressionEvent
  | press (event : KeyEvent)
  | release (event : KeyEvent)
  | repeatTimer (expired : Bool) (keysym : Keysym) (unicode : UInt32) (xkbModifiers : Modifiers)
  | modifiers (depressed latched locked group : UInt32) (previous current : Modifiers)
  | physicalModifiers (physical : Modifiers)
  | repeatInfo (rate : Int)
  | hardReset
  | resume
  /-- A new grab is requested, and its keymap arrives. -/
  | regrab (loaded : Option Xkb)
  | contextCalls (calls : List ContextCall)
  /-- The input method moves the focus. -/
  | focus (session : Option Session) (phase : Phase)
  | changeInstance (inst : Instance)
  | reloadShortcuts (shortcuts : ShortcutConfig)
  | dispatched
  | changeWorld (world : World)

namespace Frontend

/-- One event of the router. -/
def suppressionStep (engine : Engine) (frontend : Frontend) : SuppressionEvent → Frontend
  | .press event => frontend.processKeyPress engine event
  | .release event => frontend.processKeyRelease engine event
  | .repeatTimer expired keysym unicode xkbModifiers =>
      frontend.dispatchRepeat engine expired keysym unicode xkbModifiers
  | .modifiers depressed latched locked group previous current =>
      frontend.onModifiers depressed latched locked group previous current
  | .physicalModifiers physical =>
      frontend.updateKeyboard fun keyboard => { keyboard with physicalModifiers := physical }
  | .repeatInfo rate => frontend.onRepeatInfo rate
  | .hardReset => frontend.hardResetKeyboard
  | .resume => frontend.scrubKeyboard
  | .regrab loaded => frontend.rebuildKeyboardGrab.2.onKeymap loaded
  | .contextCalls calls => calls.foldl contextCall frontend
  | .focus session phase => { frontend with session, lifecyclePhase := phase }
  | .changeInstance inst => { frontend with inst }
  | .reloadShortcuts shortcuts => { frontend with shortcuts }
  | .dispatched => { frontend with dispatchEpoch := frontend.dispatchEpoch + 1 }
  | .changeWorld world => { frontend with world }

/-- The event is not the press of an untracked key which the startup guard suppresses. -/
def PressTracked (frontend : Frontend) : SuppressionEvent → Prop
  | .press event => ¬ frontend.SuppressesUntracked event
  | _ => True

/-- One event keeps the count right exactly when it suppresses no untracked key. -/
theorem suppressionStep_counts (engine : Engine) {frontend : Frontend}
    (counts : frontend.CountsSuppressed) (event : SuppressionEvent) :
    (frontend.suppressionStep engine event).CountsSuppressed ↔ frontend.PressTracked event := by
  have around {after : Frontend} (kept : SuppressionKept frontend after) :
      after.CountsSuppressed ↔ True := iff_true_intro (kept.countsSuppressed_iff.mpr counts)
  cases event with
  | press event =>
      have noted : SuppressionKept frontend (frontend.log (.routed event)) := .of_same rfl rfl
      exact (SuppressionKept.repeatAfterPress _ event).countsSuppressed_iff.trans
        (processPress_counts engine (noted.countsSuppressed_iff.mpr counts))
  | release event =>
      have noted : SuppressionKept frontend (frontend.log (.routed event)) := .of_same rfl rfl
      have stopped := noted.trans (.repeatBeforeRelease _ event.key)
      exact iff_true_intro
        (processRelease_counts engine (stopped.countsSuppressed_iff.mpr counts) event)
  | repeatTimer expired keysym unicode xkbModifiers =>
      exact around (.dispatchRepeat engine frontend expired keysym unicode xkbModifiers)
  | modifiers depressed latched locked group previous current =>
      exact around (.onModifiers frontend depressed latched locked group previous current)
  | physicalModifiers physical => exact around (.updateKeyboard fun _ => rfl)
  | repeatInfo rate => exact around (.updateKeyboard fun _ => rfl)
  | hardReset => exact iff_true_intro (hardResetKeyboard_counts frontend)
  | resume => exact iff_true_intro (scrubKeyboard_counts frontend)
  | regrab loaded =>
      exact iff_true_intro
        ((SuppressionKept.onKeymap _ loaded).countsSuppressed_iff.mpr
          (rebuildKeyboardGrab_counts frontend))
  | contextCalls calls => exact around (.of_text (TextFrame.contextCalls frontend calls))
  | focus session phase => exact around (.of_same rfl rfl)
  | changeInstance inst => exact around (.of_same rfl rfl)
  | reloadShortcuts shortcuts => exact around (.of_same rfl rfl)
  | dispatched => exact around (.of_same rfl rfl)
  | changeWorld world => exact around (.of_same rfl rfl)

theorem start_counts (inst : Instance) (shortcuts : ShortcutConfig) (world : World)
    (vk : VkOutcome) : (start inst shortcuts world vk).CountsSuppressed := by
  cases vk <;> exact countsSuppressed_of_none rfl

/-- From the start of the loop on, the keyboard counts the keys which are recorded as suppressed
exactly as long as the startup guard suppresses no press of an untracked key. -/
theorem countsSuppressed_iff_pressTracked (engine : Engine) (inst : Instance)
    (shortcuts : ShortcutConfig) (world : World) (vk : VkOutcome)
    (events : List SuppressionEvent) :
    Machine.Always (suppressionStep engine) CountsSuppressed (start inst shortcuts world vk)
        events ↔
      Machine.EachStep (suppressionStep engine) PressTracked (start inst shortcuts world vk)
        events :=
  Machine.always_iff_eachStep (fun _ => True)
    (fun _ event _ counts => suppressionStep_counts engine counts event)
    (fun _ _ _ _ _ => trivial) trivial (start_counts inst shortcuts world vk)

/-- A key beyond the tracked range is pressed right after the grab has been rebuilt. -/
theorem untracked_key_counted :
    ¬Machine.Always (suppressionStep fun _ => { handled := false, calls := [], active := none })
      CountsSuppressed
      (start ⟨some "rime", none, false, false⟩ ShortcutConfig.defaults (World.obliging 1000)
        .created)
      [.regrab none, .regrab none, .press ⟨true, 600, Keysym.up, 0, 0, 1000⟩] := by
  intro always
  have counted := always.final
  revert counted
  decide +kernel

end Frontend

end Typio
