import Typio.Machine
import Typio.Wayland.EventLoop

/-!
# Keys held in the application

The router promises that a key whose last event on the virtual keyboard is a press is still owed
its release by the tracker.  The promise is broken in three ways: a key outside the tracked range
is forwarded, the release of a forwarded key is reserved for the candidate list, or the press of
a key which the application already holds is consumed and latched for something else.
-/

namespace Typio

/-! ## The application's view -/

/-- What an effect tells the application about the key: pressed, released, or nothing. -/
def Effect.pressOf (key : Nat) : Effect → Option Bool
  | vkKey _ other pressed => if other = key then some pressed else none
  | _ => none

/-- The last event of the key on the virtual keyboard is a press. -/
def heldInApp (trace : List Effect) (key : Nat) : Bool :=
  (trace.findSome? (Effect.pressOf key)).getD false

theorem heldInApp_cons (effect : Effect) (earlier : List Effect) (key : Nat) :
    heldInApp (effect :: earlier) key =
      (effect.pressOf key).getD (heldInApp earlier key) := by
  cases press : effect.pressOf key <;> simp [heldInApp, press]

theorem heldInApp_append {effects : List Effect} {key : Nat}
    (silent : ∀ effect ∈ effects, effect.pressOf key = none) (earlier : List Effect) :
    heldInApp (effects ++ earlier) key = heldInApp earlier key := by
  have absent : effects.findSome? (Effect.pressOf key) = none :=
    List.findSome?_eq_none_iff.mpr silent
  simp [heldInApp, List.findSome?_append, absent]

theorem Effect.pressOf_of_isTextUi {effect : Effect} (text : effect.isTextUi = true) (key : Nat) :
    effect.pressOf key = none := by
  cases effect <;> simp_all [isTextUi, pressOf]

namespace Frontend

/-- The tracker owes the release of the key. -/
def owes (frontend : Frontend) (key : Nat) : Bool := (frontend.tracking.getState key).owed

/-- No key is stuck: a key held in the application is owed its release. -/
def NoKeyStuck (frontend : Frontend) : Prop :=
  ∀ key, heldInApp frontend.trace key = true → frontend.owes key = true

/-- The tracker owes no release of a key which the application does not hold. -/
def OwesHeld (frontend : Frontend) : Prop :=
  ∀ key, frontend.owes key = true → heldInApp frontend.trace key = true

/-- The tracker owes exactly the releases of the keys which the application holds. -/
def Settled (frontend : Frontend) : Prop :=
  ∀ key, heldInApp frontend.trace key = frontend.owes key

theorem settled_iff (frontend : Frontend) :
    frontend.Settled ↔ frontend.NoKeyStuck ∧ frontend.OwesHeld := by
  constructor
  · intro settled
    exact ⟨fun key held => settled key ▸ held, fun key owed => (settled key).trans owed⟩
  · rintro ⟨not_stuck, owes_held⟩ key
    exact Bool.eq_iff_iff.mpr ⟨not_stuck key, owes_held key⟩

end Frontend

/-! ## Changes to the keys -/

/-- A frontend changes its tracker and the application's view at most in one key, and leaves the
virtual keyboard as it was. -/
structure KeysKept (changed : Option Nat) (before after : Frontend) : Prop where
  vk : after.vk = before.vk
  world : after.world = before.world
  keyboard : after.keyboard.isSome = before.keyboard.isSome
  state : ∀ key, changed ≠ some key → after.tracking.getState key = before.tracking.getState key
  held : ∀ key, changed ≠ some key → heldInApp after.trace key = heldInApp before.trace key

namespace KeysKept

variable {changed : Option Nat} {first second third before : Frontend}

theorem refl (changed : Option Nat) (frontend : Frontend) :
    KeysKept changed frontend frontend where
  vk := rfl
  world := rfl
  keyboard := rfl
  state _ _ := rfl
  held _ _ := rfl

theorem trans (left : KeysKept changed first second) (right : KeysKept changed second third) :
    KeysKept changed first third where
  vk := right.vk.trans left.vk
  world := right.world.trans left.world
  keyboard := right.keyboard.trans left.keyboard
  state key free := (right.state key free).trans (left.state key free)
  held key free := (right.held key free).trans (left.held key free)

theorem log {effect : Effect} (silent : ∀ key, changed ≠ some key → effect.pressOf key = none) :
    KeysKept changed before (before.log effect) where
  vk := rfl
  world := rfl
  keyboard := rfl
  state _ _ := rfl
  held key free := by simp [heldInApp_cons, silent key free]

theorem setKeyState (key : Nat) (state : KeyTrackState) :
    KeysKept (some key) before (before.setKeyState key state) where
  vk := rfl
  world := rfl
  keyboard := rfl
  state other free := by
    have distinct : other ≠ key := fun same => free (congrArg some same.symm)
    simp [KeyTracking.getState_setState, distinct]
  held _ _ := rfl

theorem clearKeyTracking (key : Nat) :
    KeysKept (some key) before (before.clearKeyTracking key) where
  vk := rfl
  world := rfl
  keyboard := rfl
  state other free := by
    have distinct : other ≠ key := fun same => free (congrArg some same.symm)
    simp [KeyTracking.getState_clearTracking, distinct]
  held _ _ := rfl

theorem claim (key : Nat) :
    KeysKept changed before (before.updateTracking (·.claimCurrentGeneration key)) where
  vk := rfl
  world := rfl
  keyboard := rfl
  state _ _ := by simp
  held _ _ := rfl

theorem updateKeyboard (update : Keyboard → Keyboard) :
    KeysKept changed before (before.updateKeyboard update) where
  vk := rfl
  world := rfl
  keyboard := by simp
  state _ _ := rfl
  held _ _ := rfl

theorem stop : KeysKept changed before before.stop where
  vk := rfl
  world := rfl
  keyboard := rfl
  state _ _ := rfl
  held _ _ := rfl

theorem releaseGrab : KeysKept changed before before.releaseGrab := by
  unfold Frontend.releaseGrab
  split
  · exact refl changed before
  · split
    · exact (log fun _ _ => rfl).trans (updateKeyboard _)
    · exact refl changed before

theorem of_textFrame (text : TextFrame first second) : KeysKept changed first second where
  vk := by rw [text.frame]
  world := by rw [text.frame]
  keyboard := by rw [text.frame]
  state _ _ := by rw [text.frame]
  held key _ := by
    obtain ⟨effects, trace_eq, effects_text⟩ := text.sent
    rw [trace_eq]
    exact heldInApp_append
      (fun effect mem => Effect.pressOf_of_isTextUi (effects_text effect mem) key) _

theorem processKey (engine : Engine) (event : KeyEvent) (isRepeat : Bool) :
    KeysKept changed before (before.processKey engine event isRepeat).2 := by
  unfold Frontend.processKey
  split
  · exact (log fun _ _ => rfl).trans (of_textFrame (TextFrame.callEngine engine _))
  · exact refl changed before

theorem vkForwardKey (ready : before.vk.state = .ready) (time key : Nat) (pressed : Bool) :
    KeysKept (some key) before (before.vkForwardKey time key pressed) := by
  rw [Frontend.vkForwardKey_of_ready ready]
  refine log fun other free => ?_
  have distinct : key ≠ other := fun same => free (congrArg some same)
  simp [Effect.pressOf, distinct]

variable {key : Nat}

/-- After a change to one key, only this key can be stuck. -/
theorem noKeyStuck_iff (kept : KeysKept (some key) first second) (settled : first.Settled) :
    second.NoKeyStuck ↔ (heldInApp second.trace key = true → second.owes key = true) := by
  constructor
  · intro not_stuck
    exact not_stuck key
  · intro own other held
    by_cases same : key = other
    · exact same ▸ own (same ▸ held)
    · have distinct : some key ≠ some other := fun equal => same (Option.some.inj equal)
      rw [kept.held other distinct, settled other] at held
      rwa [Frontend.owes, kept.state other distinct]

/-- After a change to one key, only this key can be owed without being held. -/
theorem owesHeld_iff (kept : KeysKept (some key) first second) (settled : first.Settled) :
    second.OwesHeld ↔ (second.owes key = true → heldInApp second.trace key = true) := by
  constructor
  · intro owes_held
    exact owes_held key
  · intro own other owed
    by_cases same : key = other
    · exact same ▸ own (same ▸ owed)
    · have distinct : some key ≠ some other := fun equal => same (Option.some.inj equal)
      rw [Frontend.owes, kept.state other distinct] at owed
      rw [kept.held other distinct, settled other]
      exact owed

/-- A change which touches no key keeps the frontend settled. -/
theorem settled (kept : KeysKept none first second) (settled : first.Settled) :
    second.Settled := by
  intro key
  rw [kept.held key (by simp), settled key, Frontend.owes, Frontend.owes,
    kept.state key (by simp)]

end KeysKept

/-! ## One press -/

namespace Frontend

theorem owes_of_untracked (frontend : Frontend) {key : Nat} (untracked : maxTrackedKeys ≤ key) :
    frontend.owes key = false := by
  simp [owes, frontend.tracking.getState_of_untracked untracked, KeyTrackState.owed]

section Engine

variable (engine : Engine)

/-- The engine declines a press, and no candidate list reserves the key afterwards; modifiers are
passed on in any case. -/
def engineDeclines (frontend : Frontend) (event : KeyEvent) : Bool :=
  let handled := (frontend.processKey engine event false).1
  let reserved :=
    (frontend.processKey engine event false).2.candidateGuardShouldConsume event.keysym
  !(!handled && reserved) && (!handled || event.keysym.isModifierOnly)

/-- A press which has passed the startup guard is forwarded to the application: an application
shortcut, a printable key of the basic engine, or a key the engine declines. -/
def forwardsPress (frontend : Frontend) (event : KeyEvent) : Bool :=
  decide (reservedAction frontend.shortcuts event.keysym event.modifiers = .none) &&
    (isAppShortcut event.keysym event.modifiers ||
      frontend.shouldForwardBasicText event.modifiers event.unicode ||
      frontend.engineDeclines engine event)

theorem offerPress_eq (frontend : Frontend) (event : KeyEvent) :
    frontend.offerPress engine event =
      if frontend.engineDeclines engine event then
        ((frontend.processKey engine event false).2.vkForwardKey event.time event.key true)
          |>.setKeyState event.key .forwarded
      else (frontend.processKey engine event false).2 := by
  simp only [offerPress, engineDeclines]
  split <;> rename_i guard <;> simp [guard]

/-- What a step leaves of one key: the application's view and the tracker's debt. -/
structure KeyLeft (after : Frontend) (key : Nat) (held owed : Bool) : Prop where
  held : heldInApp after.trace key = held
  owed : key < maxTrackedKeys → after.owes key = owed

theorem forwardPress_left {frontend : Frontend} (ready : frontend.vk.state = .ready)
    (event : KeyEvent) (state : KeyTrackState) (owed : state.owed = true) :
    KeyLeft ((frontend.vkForwardKey event.time event.key true).setKeyState event.key state)
      event.key true true where
  held := by simp [vkForwardKey_of_ready ready, heldInApp_cons, Effect.pressOf]
  owed tracked := by simp [owes, tracked, owed]

/-- A press which has passed the startup guard: forwarded, the key is held and owed; latched for
the voice input, it is not owed; otherwise nothing changes. -/
theorem classifyPress_left {frontend : Frontend} (ready : frontend.vk.state = .ready)
    (event : KeyEvent) :
    KeyLeft (frontend.classifyPress engine event) event.key
      (frontend.forwardsPress engine event || heldInApp frontend.trace event.key)
      (if frontend.forwardsPress engine event then true
        else if reservedAction frontend.shortcuts event.keysym event.modifiers = .voicePtt
        then false
        else frontend.owes event.key) := by
  unfold classifyPress forwardsPress
  cases reserved : reservedAction frontend.shortcuts event.keysym event.modifiers with
  | emergencyExit =>
      have kept : KeysKept none frontend frontend.releaseGrab := KeysKept.releaseGrab
      exact ⟨by simp [kept.held], by simp [owes, kept.state]⟩
  | voicePtt =>
      cases available : frontend.inst.voiceAvailable
      · exact ⟨by simp [heldInApp_cons, Effect.pressOf],
          fun tracked => by simp [owes, tracked, KeyTrackState.owed]⟩
      · exact ⟨by simp [heldInApp_cons, Effect.pressOf],
          fun tracked => by simp [owes, tracked, KeyTrackState.owed]⟩
  | none =>
      by_cases shortcut : isAppShortcut event.keysym event.modifiers = true
      · simpa [shortcut] using forwardPress_left ready event .appShortcut rfl
      · by_cases basic : frontend.shouldForwardBasicText event.modifiers event.unicode = true
        · simpa [shortcut, basic] using
            forwardPress_left ready event .basicPassthrough rfl
        · have asked : KeysKept none frontend (frontend.processKey engine event false).2 :=
            KeysKept.processKey engine event false
          have still_ready : (frontend.processKey engine event false).2.vk.state = .ready := by
            rw [asked.vk, ready]
          rw [offerPress_eq]
          by_cases declined : frontend.engineDeclines engine event = true
          · simpa [shortcut, basic, declined] using
              forwardPress_left still_ready event .forwarded rfl
          · simp only [shortcut, basic, declined]
            exact ⟨by simp [asked.held], by simp [owes, asked.state]⟩

theorem classifyPress_kept {frontend : Frontend} (ready : frontend.vk.state = .ready)
    (event : KeyEvent) :
    KeysKept (some event.key) frontend (frontend.classifyPress engine event) := by
  have forwarded (state : KeyTrackState) := (KeysKept.vkForwardKey ready event.time event.key
    true).trans (KeysKept.setKeyState event.key state)
  unfold classifyPress
  split
  · exact KeysKept.releaseGrab.trans KeysKept.stop
  · split
    · exact KeysKept.trans (KeysKept.log fun _ _ => rfl) (KeysKept.setKeyState ..)
    · exact (KeysKept.setKeyState ..).trans (KeysKept.log fun _ _ => rfl)
  · split
    · exact forwarded .appShortcut
    · split
      · exact forwarded .basicPassthrough
      · have asked : KeysKept (some event.key) frontend
            (frontend.processKey engine event false).2 := KeysKept.processKey engine event false
        rw [offerPress_eq]
        split
        · have still_ready : (frontend.processKey engine event false).2.vk.state = .ready := by
            rw [asked.vk, ready]
          exact (asked.trans (KeysKept.vkForwardKey still_ready ..)).trans
            (KeysKept.setKeyState ..)
        · exact asked

/-- The frontend once an unlatched press has passed the startup guard. -/
def takeUp (frontend : Frontend) (key : Nat) : Frontend :=
  (frontend.updateTracking (·.claimCurrentGeneration key)).updateKeyboard Keyboard.endSuppression

/-- The startup guard suppresses a press. -/
def suppressesPress (frontend : Frontend) (keyboard : Keyboard) : Bool :=
  startupSuppressesPress keyboard.createdAtEpoch frontend.dispatchEpoch
    keyboard.suppressStaleKeys

theorem routePress_eq (frontend : Frontend) (keyboard : Keyboard) (event : KeyEvent) :
    frontend.routePress engine keyboard event =
      if frontend.suppressesPress keyboard then
        ((frontend.updateTracking (·.claimCurrentGeneration event.key)).setKeyState event.key
          .suppressedStartup).updateKeyboard fun keyboard =>
            { keyboard with startupSuppressedCount := keyboard.startupSuppressedCount + 1 }
      else (frontend.takeUp event.key).classifyPress engine event := rfl

/-- A press of a key whose route is not latched sends a press to the application. -/
def pressSends (frontend : Frontend) (keyboard : Keyboard) (event : KeyEvent) : Bool :=
  !frontend.suppressesPress keyboard && (frontend.takeUp event.key).forwardsPress engine event

/-- A press of a key whose route is not latched is consumed, and latches the key as suppressed
or for the voice input. -/
def pressRetracks (frontend : Frontend) (keyboard : Keyboard) (event : KeyEvent) : Bool :=
  frontend.suppressesPress keyboard ||
    decide (reservedAction frontend.shortcuts event.keysym event.modifiers = .voicePtt)

theorem takeUp_kept (frontend : Frontend) (key : Nat) (changed : Option Nat) :
    KeysKept changed frontend (frontend.takeUp key) :=
  (KeysKept.claim key).trans (KeysKept.updateKeyboard _)

theorem routePress_kept {frontend : Frontend} (ready : frontend.vk.state = .ready)
    (keyboard : Keyboard) (event : KeyEvent) :
    KeysKept (some event.key) frontend (frontend.routePress engine keyboard event) := by
  rw [routePress_eq]
  split
  · exact ((KeysKept.claim _).trans (KeysKept.setKeyState ..)).trans (KeysKept.updateKeyboard _)
  · have still_ready : (frontend.takeUp event.key).vk.state = .ready := ready
    exact (takeUp_kept frontend event.key _).trans (classifyPress_kept engine still_ready event)

theorem routePress_left {frontend : Frontend} (ready : frontend.vk.state = .ready)
    (keyboard : Keyboard) (event : KeyEvent) :
    KeyLeft (frontend.routePress engine keyboard event) event.key
      (frontend.pressSends engine keyboard event || heldInApp frontend.trace event.key)
      (if frontend.pressSends engine keyboard event then true
        else if frontend.pressRetracks keyboard event then false
        else frontend.owes event.key) := by
  rw [routePress_eq]
  by_cases suppressed : frontend.suppressesPress keyboard = true
  · simp only [suppressed, if_true, pressSends, pressRetracks]
    exact ⟨by simp, fun tracked => by simp [owes, tracked, KeyTrackState.owed]⟩
  · have still_ready : (frontend.takeUp event.key).vk.state = .ready := ready
    have shortcuts_eq : (frontend.takeUp event.key).shortcuts = frontend.shortcuts := rfl
    have admitted := frontend.takeUp_kept event.key none
    have held_eq := admitted.held event.key (by simp)
    have state_eq := admitted.state event.key (by simp)
    have left := classifyPress_left engine still_ready event
    simpa [suppressed, pressSends, pressRetracks, held_eq, owes, state_eq, shortcuts_eq]
      using left

theorem processPress_kept {frontend : Frontend} (ready : frontend.vk.state = .ready)
    (event : KeyEvent) :
    KeysKept (some event.key) frontend (frontend.processPress engine event) := by
  have forwarded := KeysKept.vkForwardKey ready event.time event.key true
  unfold processPress
  split
  · exact KeysKept.refl _ frontend
  · split
    any_goals exact KeysKept.refl _ frontend
    any_goals exact routePress_kept engine ready _ event
    · split
      · exact forwarded
      · exact KeysKept.refl _ frontend
    · exact forwarded

/-- A press leaves no key stuck: a key outside the tracked range is not forwarded, and a key which
the application holds as basic text is not consumed and latched for something else. -/
def PressKept (frontend : Frontend) (event : KeyEvent) : Prop :=
  ∀ keyboard, frontend.keyboard = some keyboard →
    ¬(maxTrackedKeys ≤ event.key ∧ frontend.pressSends engine keyboard event = true) ∧
    ¬(frontend.tracking.getState event.key = .basicPassthrough ∧
      frontend.pressRetracks keyboard event = true)

theorem not_pressSends_of_retracks {frontend : Frontend} {keyboard : Keyboard} {event : KeyEvent}
    (retracks : frontend.pressRetracks keyboard event = true) :
    frontend.pressSends engine keyboard event = false := by
  have shortcuts_eq : (frontend.takeUp event.key).shortcuts = frontend.shortcuts := rfl
  simp only [pressRetracks, Bool.or_eq_true, decide_eq_true_eq] at retracks
  rcases retracks with suppressed | reserved
  · simp [pressSends, suppressed]
  · simp [pressSends, forwardsPress, shortcuts_eq, reserved]

/-- A press settles its key, unless it breaks the promise. -/
theorem routePress_settled {frontend : Frontend} (ready : frontend.vk.state = .ready)
    (settled : frontend.Settled) (keyboard : Keyboard) (event : KeyEvent) :
    ((frontend.routePress engine keyboard event).NoKeyStuck ↔
      ¬(maxTrackedKeys ≤ event.key ∧ frontend.pressSends engine keyboard event = true) ∧
      ¬(frontend.owes event.key = true ∧ frontend.pressRetracks keyboard event = true)) ∧
    (frontend.routePress engine keyboard event).OwesHeld := by
  have kept := routePress_kept engine ready keyboard event
  have left := routePress_left engine ready keyboard event
  have exclusive : frontend.pressRetracks keyboard event = true →
      frontend.pressSends engine keyboard event = false := not_pressSends_of_retracks engine
  have before := settled event.key
  rw [kept.noKeyStuck_iff settled, kept.owesHeld_iff settled, left.held]
  by_cases tracked : event.key < maxTrackedKeys
  · rw [left.owed tracked, before]
    cases owed : frontend.owes event.key <;>
      cases retracks : frontend.pressRetracks keyboard event <;>
        cases sends : frontend.pressSends engine keyboard event <;>
          simp_all
  · have untracked := Nat.not_lt.mp tracked
    rw [owes_of_untracked _ untracked, before, owes_of_untracked _ untracked]
    simp [untracked]

/-- Repeating the press of an owed key keeps the frontend settled. -/
theorem forwardPress_settled {frontend : Frontend} (ready : frontend.vk.state = .ready)
    (settled : frontend.Settled) {key : Nat} (owed : frontend.owes key = true) (time : Nat) :
    (frontend.vkForwardKey time key true).Settled := by
  have kept := KeysKept.vkForwardKey ready time key true
  have held : heldInApp (frontend.vkForwardKey time key true).trace key = true := by
    simp [vkForwardKey_of_ready ready, heldInApp_cons, Effect.pressOf]
  have still_owed : (frontend.vkForwardKey time key true).owes key = true := by
    rw [vkForwardKey_of_ready ready]
    exact owed
  exact (settled_iff _).mpr ⟨(kept.noKeyStuck_iff settled).mpr fun _ => still_owed,
    (kept.owesHeld_iff settled).mpr fun _ => held⟩

/-- A press of a latched key keeps the promise. -/
theorem pressKept_of_latched {frontend : Frontend} {event : KeyEvent}
    (busy : frontend.tracking.getState event.key ≠ .idle)
    (not_basic : frontend.tracking.getState event.key ≠ .basicPassthrough) :
    frontend.PressKept engine event := by
  intro keyboard _
  have tracked := KeyTracking.tracked_of_getState_ne busy
  exact ⟨fun untracked => Nat.not_le.mpr tracked untracked.1, fun basic => not_basic basic.1⟩

theorem processPress_settled {frontend : Frontend} (ready : frontend.vk.state = .ready)
    (settled : frontend.Settled) (event : KeyEvent) :
    ((frontend.processPress engine event).NoKeyStuck ↔ frontend.PressKept engine event) ∧
      (frontend.processPress engine event).OwesHeld := by
  have latched {after : Frontend} (after_settled : after.Settled)
      (busy : frontend.tracking.getState event.key ≠ .idle)
      (not_basic : frontend.tracking.getState event.key ≠ .basicPassthrough) :
      (after.NoKeyStuck ↔ frontend.PressKept engine event) ∧ after.OwesHeld := by
    obtain ⟨not_stuck, owes_held⟩ := (settled_iff after).mp after_settled
    exact ⟨iff_of_true not_stuck (pressKept_of_latched engine busy not_basic), owes_held⟩
  unfold processPress
  cases keyboard_eq : frontend.keyboard with
  | none =>
      obtain ⟨not_stuck, owes_held⟩ := (settled_iff frontend).mp settled
      exact ⟨iff_of_true not_stuck fun keyboard some_eq => by simp [keyboard_eq] at some_eq,
        owes_held⟩
  | some keyboard =>
      have routed := routePress_settled engine ready settled keyboard event
      have kept_iff : frontend.PressKept engine event ↔
          ¬(maxTrackedKeys ≤ event.key ∧ frontend.pressSends engine keyboard event = true) ∧
          ¬(frontend.tracking.getState event.key = .basicPassthrough ∧
            frontend.pressRetracks keyboard event = true) := by
        simp [PressKept, keyboard_eq]
      rw [owes] at routed
      cases state_eq : frontend.tracking.getState event.key with
      | forwarded =>
          have owed : frontend.owes event.key = true := by simp [owes, state_eq, KeyTrackState.owed]
          exact latched (forwardPress_settled ready settled owed event.time) (by simp [state_eq])
            (by simp [state_eq])
      | appShortcut =>
          have owed : frontend.owes event.key = true := by simp [owes, state_eq, KeyTrackState.owed]
          dsimp only
          split
          · exact latched (forwardPress_settled ready settled owed event.time)
              (by simp [state_eq]) (by simp [state_eq])
          · exact latched settled (by simp [state_eq]) (by simp [state_eq])
      | releasedPending => exact latched settled (by simp [state_eq]) (by simp [state_eq])
      | suppressedStartup => exact latched settled (by simp [state_eq]) (by simp [state_eq])
      | idle => simpa [kept_iff, state_eq, KeyTrackState.owed] using routed
      | basicPassthrough => simpa [kept_iff, state_eq, KeyTrackState.owed] using routed
      | voicePtt => simpa [kept_iff, state_eq, KeyTrackState.owed] using routed
      | voicePttUnavail => simpa [kept_iff, state_eq, KeyTrackState.owed] using routed

/-! ## One release -/

/-- The release of a forwarded key is declined by the engine and reserved for the candidate list
which is shown by then. -/
def releaseReserved (frontend : Frontend) (event : KeyEvent) : Bool :=
  let asked := (frontend.clearKeyTracking event.key).processKey engine event false
  !asked.1 && asked.2.candidateGuardShouldConsume event.keysym

/-- A release leaves no key stuck: the release of a forwarded key is not reserved. -/
def ReleaseKept (frontend : Frontend) (event : KeyEvent) : Prop :=
  ¬(frontend.keyboard.isSome = true ∧ frontend.tracking.getState event.key = .forwarded ∧
    frontend.releaseReserved engine event = true)

theorem releaseForwarded_eq (frontend : Frontend) (event : KeyEvent) :
    frontend.releaseForwarded engine event =
      let asked := ((frontend.clearKeyTracking event.key).processKey engine event false).2
      if frontend.releaseReserved engine event then asked.clearKeyTracking event.key
      else asked.vkForwardKey event.time event.key false := rfl

/-- A step releases the key: it is no longer owed, and its release may have been sent. -/
structure KeyReleased (before after : Frontend) (key : Nat) (sent : Bool) : Prop where
  kept : KeysKept (some key) before after
  owed : after.owes key = false
  held : heldInApp after.trace key = (!sent && heldInApp before.trace key)

theorem owes_clearKeyTracking (frontend : Frontend) (key : Nat) :
    (frontend.clearKeyTracking key).owes key = false := by
  simp [owes, KeyTracking.getState_clearTracking, KeyTrackState.owed]

theorem KeyReleased.clear {before middle : Frontend} {key : Nat}
    (kept : KeysKept none before middle) :
    KeyReleased before (middle.clearKeyTracking key) key false where
  kept := by
    have cleared : KeysKept (some key) middle (middle.clearKeyTracking key) :=
      KeysKept.clearKeyTracking key
    exact ⟨kept.vk, kept.world, kept.keyboard,
      fun other free => (cleared.state other free).trans (kept.state other (by simp)),
      fun other free => (cleared.held other free).trans (kept.held other (by simp))⟩
  owed := owes_clearKeyTracking middle key
  held := by simpa using kept.held key (by simp)

theorem KeyReleased.then {before middle after : Frontend} {key : Nat} {sent : Bool}
    (released : KeyReleased before middle key sent) (kept : KeysKept none middle after) :
    KeyReleased before after key sent where
  kept := by
    have wider : KeysKept (some key) middle after :=
      ⟨kept.vk, kept.world, kept.keyboard, fun other _ => kept.state other (by simp),
        fun other _ => kept.held other (by simp)⟩
    exact released.kept.trans wider
  owed := by
    rw [owes, kept.state key (by simp)]
    exact released.owed
  held := by rw [kept.held key (by simp), released.held]

theorem KeyReleased.send {before middle : Frontend} {key : Nat} {sent : Bool}
    (released : KeyReleased before middle key sent) (ready : before.vk.state = .ready)
    (time : Nat) : KeyReleased before (middle.vkForwardKey time key false) key true where
  kept := by
    have still_ready : middle.vk.state = .ready := by rw [released.kept.vk, ready]
    exact released.kept.trans (KeysKept.vkForwardKey still_ready time key false)
  owed := by
    have still_ready : middle.vk.state = .ready := by rw [released.kept.vk, ready]
    rw [vkForwardKey_of_ready still_ready]
    exact released.owed
  held := by
    have still_ready : middle.vk.state = .ready := by rw [released.kept.vk, ready]
    simp [vkForwardKey_of_ready still_ready, heldInApp_cons, Effect.pressOf]

theorem KeyReleased.clearAgain {before middle : Frontend} {key : Nat} {sent : Bool}
    (released : KeyReleased before middle key sent) :
    KeyReleased before (middle.clearKeyTracking key) key sent where
  kept := released.kept.trans (KeysKept.clearKeyTracking key)
  owed := owes_clearKeyTracking middle key
  held := released.held

/-- A release of an idle key is sent on as an orphan. -/
def sendsOrphan (frontend : Frontend) (keyboard : Keyboard) (event : KeyEvent) : Bool :=
  !frontend.tracking.ownedByActiveGeneration event.key &&
    (!event.keysym.isModifierOnly &&
      (isInGuardWindow keyboard.createdAtEpoch frontend.dispatchEpoch ||
        shouldForwardOrphanReleaseCleanup event.keysym event.modifiers
          keyboard.sawBlockingModifier))

/-- A release is sent to the application. -/
def releaseSends (frontend : Frontend) (keyboard : Keyboard) (event : KeyEvent) : Bool :=
  match frontend.tracking.getState event.key with
  | .releasedPending | .voicePtt | .voicePttUnavail => false
  | .suppressedStartup | .appShortcut | .basicPassthrough => true
  | .forwarded => !frontend.releaseReserved engine event
  | .idle => frontend.sendsOrphan keyboard event

theorem releaseIdle_released {frontend : Frontend} (ready : frontend.vk.state = .ready)
    (keyboard : Keyboard) (event : KeyEvent) :
    KeyReleased frontend (frontend.releaseIdle engine keyboard event) event.key
      (frontend.sendsOrphan keyboard event) := by
  have cleared : KeyReleased frontend (frontend.clearKeyTracking event.key) event.key false :=
    KeyReleased.clear (KeysKept.refl none frontend)
  unfold releaseIdle sendsOrphan
  cases owned : frontend.tracking.ownedByActiveGeneration event.key with
  | false =>
      simp only [Bool.not_false, if_true, Bool.true_and]
      split
      · rename_i orphan
        have still_ready : (frontend.clearKeyTracking event.key).vk.state = .ready := ready
        have sent := cleared.send ready event.time
        rw [vkForwardKey_of_ready still_ready] at sent
        rw [orphan, vkForwardKey_of_ready ready]
        exact sent
      · rename_i orphan
        rw [Bool.eq_false_iff.mpr orphan]
        exact cleared
  | true =>
      exact KeyReleased.clear
        ((KeysKept.updateKeyboard _).trans (KeysKept.processKey engine event false))

theorem releaseForwarded_released {frontend : Frontend} (ready : frontend.vk.state = .ready)
    (event : KeyEvent) :
    KeyReleased frontend (frontend.releaseForwarded engine event) event.key
      (!frontend.releaseReserved engine event) := by
  have cleared : KeyReleased frontend (frontend.clearKeyTracking event.key) event.key false :=
    KeyReleased.clear (KeysKept.refl none frontend)
  have asked := cleared.then (KeysKept.processKey engine event false)
  rw [releaseForwarded_eq]
  cases frontend.releaseReserved engine event with
  | false => exact asked.send ready event.time
  | true => exact asked.clearAgain

theorem processRelease_released {frontend : Frontend} (ready : frontend.vk.state = .ready)
    {keyboard : Keyboard} (keyboard_eq : frontend.keyboard = some keyboard) (event : KeyEvent) :
    KeyReleased frontend (frontend.processRelease engine event) event.key
      (frontend.releaseSends engine keyboard event) := by
  have cleared : KeyReleased frontend (frontend.clearKeyTracking event.key) event.key false :=
    KeyReleased.clear (KeysKept.refl none frontend)
  unfold processRelease releaseSends
  rw [keyboard_eq]
  cases frontend.tracking.getState event.key with
  | releasedPending => exact cleared
  | suppressedStartup => exact (cleared.then (KeysKept.updateKeyboard _)).send ready event.time
  | appShortcut => exact cleared.send ready event.time
  | basicPassthrough => exact cleared.send ready event.time
  | voicePtt => exact KeyReleased.clear (KeysKept.log fun _ _ => rfl)
  | voicePttUnavail => exact KeyReleased.clear (KeysKept.log fun _ _ => rfl)
  | forwarded => exact releaseForwarded_released engine ready event
  | idle => exact releaseIdle_released engine ready keyboard event

theorem processRelease_kept {frontend : Frontend} (ready : frontend.vk.state = .ready)
    (event : KeyEvent) :
    KeysKept (some event.key) frontend (frontend.processRelease engine event) := by
  cases keyboard_eq : frontend.keyboard with
  | none =>
      have unchanged : frontend.processRelease engine event = frontend := by
        simp [processRelease, keyboard_eq]
      rw [unchanged]
      exact KeysKept.refl _ frontend
  | some keyboard => exact (processRelease_released engine ready keyboard_eq event).kept

theorem processRelease_settled {frontend : Frontend} (ready : frontend.vk.state = .ready)
    (settled : frontend.Settled) (event : KeyEvent) :
    ((frontend.processRelease engine event).NoKeyStuck ↔ frontend.ReleaseKept engine event) ∧
      (frontend.processRelease engine event).OwesHeld := by
  cases keyboard_eq : frontend.keyboard with
  | none =>
      have unchanged : frontend.processRelease engine event = frontend := by
        simp [processRelease, keyboard_eq]
      obtain ⟨not_stuck, owes_held⟩ := (settled_iff frontend).mp settled
      rw [unchanged]
      exact ⟨iff_of_true not_stuck (by simp [ReleaseKept, keyboard_eq]), owes_held⟩
  | some keyboard =>
      have released := processRelease_released engine ready keyboard_eq event
      rw [released.kept.noKeyStuck_iff settled, released.kept.owesHeld_iff settled,
        released.owed, released.held, settled event.key]
      refine ⟨?_, by simp⟩
      unfold ReleaseKept releaseSends owes
      cases state_eq : frontend.tracking.getState event.key <;>
        simp [keyboard_eq, KeyTrackState.owed]

end Engine

/-! ## Boundaries -/

/-- The application holds no key, and the tracker owes none. -/
def AllReleased (frontend : Frontend) : Prop :=
  ∀ key, heldInApp frontend.trace key = false ∧ frontend.owes key = false

theorem AllReleased.settled {frontend : Frontend} (released : frontend.AllReleased) :
    frontend.Settled := fun key => (released key).1.trans (released key).2.symm

/-- Once every owed key has been released, the application holds none of them. -/
theorem not_held_of_released {effects earlier : List Effect} {key : Nat}
    (releases : ∀ effect ∈ effects, effect.pressOf key ≠ some true)
    (released : heldInApp earlier key = true → ∃ effect ∈ effects, effect.pressOf key ≠ none) :
    heldInApp (effects ++ earlier) key = false := by
  induction effects with
  | nil =>
      rw [List.nil_append, Bool.eq_false_iff]
      intro held
      obtain ⟨effect, mem, -⟩ := released held
      simp at mem
  | cons effect effects induction =>
      rw [List.cons_append, heldInApp_cons]
      cases press : effect.pressOf key with
      | some pressed =>
          have not_pressed := releases effect List.mem_cons_self
          rw [press] at not_pressed
          simpa using not_pressed
      | none =>
          refine induction (fun other mem => releases other (List.mem_cons_of_mem _ mem)) ?_
          intro held
          obtain ⟨other, mem, some_press⟩ := released held
          rcases List.mem_cons.mp mem with rfl | mem
          · exact absurd press some_press
          · exact ⟨other, mem, some_press⟩

/-- The loop over all keys releases every key the application holds. -/
theorem vkReleaseOwed_released {frontend : Frontend} (settled : frontend.Settled)
    {keys : List (Fin maxTrackedKeys)} (all : ∀ key, key ∈ keys) (key : Nat) :
    heldInApp (frontend.vkReleaseOwed keys).trace key = false := by
  rw [vkReleaseOwed_eq]
  refine not_held_of_released ?_ ?_
  · intro effect mem
    obtain ⟨other, -, rfl⟩ := List.mem_map.mp (List.mem_reverse.mp mem)
    simp [Effect.pressOf]
  · intro held
    rw [settled key] at held
    have tracked : key < maxTrackedKeys := by
      by_contra untracked
      rw [owes_of_untracked _ (Nat.not_lt.mp untracked)] at held
      exact absurd held (by simp)
    have released : (⟨key, tracked⟩ : Fin maxTrackedKeys) ∈
        keys.filter fun other => (frontend.tracking.states other).owed :=
      List.mem_filter.mpr ⟨all _, by simpa [owes, KeyTracking.getState, tracked] using held⟩
    exact ⟨.vkKey frontend.world.now key false,
      List.mem_reverse.mpr (List.mem_map.mpr ⟨_, released, rfl⟩), by simp [Effect.pressOf]⟩

theorem vkReleaseForwardedKeys_released {frontend : Frontend}
    (present : frontend.vk.present = true) (ready : frontend.vk.state = .ready)
    (settled : frontend.Settled) : frontend.vkReleaseForwardedKeys.AllReleased := by
  have unfolded : frontend.vkReleaseForwardedKeys =
      (frontend.vkReleaseOwed (List.finRange maxTrackedKeys)).updateTracking
        KeyTracking.markReleasedPending :=
    if_neg (by simp [present, ready])
  rw [unfolded]
  intro key
  constructor
  · rw [updateTracking_trace]
    exact vkReleaseOwed_released settled (fun other => List.mem_finRange other) key
  · simp only [owes, updateTracking_tracking, KeyTracking.getState_markReleasedPending]
    split
    · rfl
    · rename_i not_owed
      exact Bool.eq_false_iff.mpr not_owed

/-- Where router events are handled: the virtual keyboard is ready, keymaps can be passed on, and
without a keyboard no key is owed. -/
structure RouterReady (frontend : Frontend) : Prop where
  present : frontend.vk.present = true
  ready : frontend.vk.state = .ready
  duplicates : frontend.world.duplicatesKeymap = true
  idle : frontend.keyboard = none → ∀ key, frontend.owes key = false

theorem RouterReady.of_kept {before after : Frontend} (ready : before.RouterReady)
    (kept : KeysKept none before after) : after.RouterReady where
  present := by rw [kept.vk, ready.present]
  ready := by rw [kept.vk, ready.ready]
  duplicates := by rw [kept.world, ready.duplicates]
  idle gone key := by
    have gone_before : before.keyboard = none := by
      rw [← Option.not_isSome_iff_eq_none, ← kept.keyboard, gone]
      simp
    rw [owes, kept.state key (by simp)]
    exact ready.idle gone_before key

theorem RouterReady.of_released {before after : Frontend} (ready : before.RouterReady)
    (vk : after.vk = before.vk) (world : after.world = before.world)
    (released : after.AllReleased) : after.RouterReady where
  present := by rw [vk, ready.present]
  ready := by rw [vk, ready.ready]
  duplicates := by rw [world, ready.duplicates]
  idle _ key := (released key).2

theorem AllReleased.of_kept {before after : Frontend} (released : before.AllReleased)
    (kept : KeysKept none before after) : after.AllReleased := by
  intro key
  rw [owes, kept.held key (by simp), kept.state key (by simp)]
  exact released key

theorem vkReleaseForwardedKeys_vk (frontend : Frontend) :
    frontend.vkReleaseForwardedKeys.vk = frontend.vk ∧
      frontend.vkReleaseForwardedKeys.world = frontend.world ∧
      frontend.vkReleaseForwardedKeys.keyboard = frontend.keyboard := by
  unfold vkReleaseForwardedKeys
  split
  · exact ⟨rfl, rfl, rfl⟩
  · rw [vkReleaseOwed_eq]
    exact ⟨rfl, rfl, rfl⟩

theorem vkForwardModifiers_kept {frontend : Frontend} (ready : frontend.vk.state = .ready)
    (depressed latched locked group : UInt32) :
    KeysKept none frontend (frontend.vkForwardModifiers depressed latched locked group) := by
  rw [vkForwardModifiers, whenVkReady_of_ready ready]
  exact KeysKept.log fun _ _ => rfl

theorem setCarriedVkModifiers_kept (frontend : Frontend) (carried : Bool) :
    KeysKept none frontend (frontend.setCarriedVkModifiers carried) :=
  ⟨rfl, rfl, rfl, fun _ _ => rfl, fun _ _ => rfl⟩

theorem vkResetModifiers_kept {frontend : Frontend} (ready : frontend.vk.state = .ready) :
    KeysKept none frontend frontend.vkResetModifiers := by
  rw [vkResetModifiers, whenVkReady_of_ready ready]
  exact ((KeysKept.log fun _ _ => rfl).trans (setCarriedVkModifiers_kept _ false)).trans
    (KeysKept.updateKeyboard _)

theorem disownGeneration_kept (frontend : Frontend) :
    KeysKept none frontend frontend.disownGeneration :=
  ⟨rfl, rfl, rfl, fun _ _ => rfl, fun _ _ => rfl⟩

theorem settleOwnGeneration_released {frontend : Frontend} (ready : frontend.RouterReady)
    (settled : frontend.Settled) :
    frontend.settleOwnGeneration.AllReleased ∧ frontend.settleOwnGeneration.RouterReady := by
  have released := vkReleaseForwardedKeys_released ready.present ready.ready settled
  obtain ⟨vk_eq, world_eq, -⟩ := vkReleaseForwardedKeys_vk frontend
  have still_ready := ready.of_released vk_eq world_eq released
  have kept : KeysKept none frontend.vkReleaseForwardedKeys frontend.settleOwnGeneration := by
    unfold settleOwnGeneration
    dsimp only
    split
    · exact vkResetModifiers_kept still_ready.ready
    · split
      · exact (vkForwardModifiers_kept still_ready.ready ..).trans
          (setCarriedVkModifiers_kept _ true)
      · exact vkResetModifiers_kept still_ready.ready
  exact ⟨released.of_kept kept, still_ready.of_kept kept⟩

theorem keyboardDestroy_settled {frontend : Frontend} (ready : frontend.RouterReady)
    (settled : frontend.Settled) :
    frontend.keyboardDestroy.AllReleased ∧ frontend.keyboardDestroy.RouterReady ∧
      frontend.keyboardDestroy.keyboard = none := by
  unfold keyboardDestroy
  cases keyboard_eq : frontend.keyboard with
  | none =>
      have idle := ready.idle keyboard_eq
      exact ⟨fun key => ⟨(settled key).trans (idle key), idle key⟩, ready, keyboard_eq⟩
  | some keyboard =>
      have released := vkReleaseForwardedKeys_released ready.present ready.ready settled
      obtain ⟨vk_eq, world_eq, -⟩ := vkReleaseForwardedKeys_vk frontend
      have grab_kept : KeysKept none frontend.vkReleaseForwardedKeys
          frontend.vkReleaseForwardedKeys.releaseGrab := KeysKept.releaseGrab
      have after_released :
          ((frontend.vkReleaseForwardedKeys.releaseGrab).trackingReset.setKeyboard
            none).AllReleased := by
        intro key
        refine ⟨((released.of_kept grab_kept) key).1, ?_⟩
        simp [owes, trackingReset, KeyTrackState.owed]
      exact ⟨after_released,
        ready.of_released (grab_kept.vk.trans vk_eq) (grab_kept.world.trans world_eq)
          after_released, rfl⟩

theorem hardResetKeyboard_released {frontend : Frontend} (ready : frontend.RouterReady)
    (settled : frontend.Settled) :
    frontend.hardResetKeyboard.AllReleased ∧ frontend.hardResetKeyboard.RouterReady ∧
      frontend.hardResetKeyboard.keyboard = none := by
  unfold hardResetKeyboard
  dsimp only
  generalize reset_eq : (if shouldResetCarriedModifiers frontend.lifecyclePhase
    frontend.carriedVkModifiers = true then frontend.vkResetModifiers else frontend) = reset
  have reset_kept : KeysKept none frontend reset := by
    rw [← reset_eq]
    split
    · exact vkResetModifiers_kept ready.ready
    · exact KeysKept.refl none frontend
  have reset_ready := ready.of_kept reset_kept
  have reset_settled := reset_kept.settled settled
  generalize own_eq : (if frontend.tracking.activeGenerationOwnedKeys = true then
    reset.settleOwnGeneration else reset) = own
  have own_settled : own.Settled ∧ own.RouterReady := by
    rw [← own_eq]
    split
    · obtain ⟨released, still_ready⟩ := settleOwnGeneration_released reset_ready reset_settled
      exact ⟨released.settled, still_ready⟩
    · exact ⟨reset_settled, reset_ready⟩
  obtain ⟨released, still_ready, gone⟩ := keyboardDestroy_settled own_settled.2 own_settled.1
  have no_wait : own.keyboardDestroy.vkCancelKeymapWait = own.keyboardDestroy :=
    if_pos (by simp [still_ready.ready])
  rw [no_wait]
  exact ⟨released.of_kept (disownGeneration_kept _),
    still_ready.of_kept (disownGeneration_kept _), gone⟩

theorem keyboardCreate_released {frontend : Frontend} (released : frontend.AllReleased)
    (ready : frontend.RouterReady) :
    frontend.keyboardCreate.2.AllReleased ∧ frontend.keyboardCreate.2.RouterReady := by
  unfold keyboardCreate
  split
  · exact ⟨released, ready⟩
  · dsimp only
    have bumped : KeysKept none frontend frontend.bumpKeyGeneration :=
      ⟨rfl, rfl, rfl, fun _ _ => rfl, fun _ _ => by
        simp [bumpKeyGeneration, heldInApp_cons, Effect.pressOf]⟩
    have disowned := bumped.trans (disownGeneration_kept _)
    have disowned_released := released.of_kept disowned
    have reset_released :
        frontend.bumpKeyGeneration.disownGeneration.trackingReset.AllReleased := by
      intro key
      refine ⟨(disowned_released key).1, ?_⟩
      simp [owes, trackingReset, KeyTrackState.owed]
    have reset_ready : frontend.bumpKeyGeneration.disownGeneration.trackingReset.RouterReady :=
      ready.of_released disowned.vk disowned.world reset_released
    split
    · have grabbed {reset : Frontend} : KeysKept none reset (reset.log .grabKeyboard) :=
        KeysKept.log fun _ _ => rfl
      exact ⟨reset_released.of_kept grabbed, reset_ready.of_kept grabbed⟩
    · exact ⟨reset_released, reset_ready⟩

theorem onKeymap_released {frontend : Frontend} (released : frontend.AllReleased)
    (present : frontend.vk.present = true) (duplicates : frontend.world.duplicatesKeymap = true)
    (grabbed : frontend.keyboard.isSome = true) (loaded : Option Xkb) :
    (frontend.onKeymap loaded).AllReleased ∧ (frontend.onKeymap loaded).RouterReady := by
  obtain ⟨keyboard, keyboard_eq⟩ := Option.isSome_iff_exists.mp grabbed
  have forwarded : frontend.vkForwardKeymap =
      ((frontend.log .vkKeymap).updateVk fun vk =>
        { vk with keymapGeneration := frontend.tracking.activeKeyGeneration }).vkSetState
          .ready := by
    simp [vkForwardKeymap, present, duplicates]
  have keymap_released : (frontend.onKeymap loaded).AllReleased := by
    intro key
    simpa [onKeymap, keyboard_eq, forwarded, vkSetState, heldInApp_cons, Effect.pressOf, owes]
      using released key
  refine ⟨keymap_released, ?_, ?_, ?_, fun _ key => (keymap_released key).2⟩ <;>
    simp [onKeymap, keyboard_eq, forwarded, vkSetState, present, duplicates]

/-- A new grab whose keymap arrives: no key is held, and the virtual keyboard is ready again. -/
theorem regrabbed_released {frontend : Frontend} (ready : frontend.RouterReady)
    (settled : frontend.Settled) (loaded : Option Xkb) :
    (frontend.rebuildKeyboardGrab.2.onKeymap loaded).AllReleased ∧
      (frontend.rebuildKeyboardGrab.2.onKeymap loaded).RouterReady := by
  obtain ⟨reset_released, reset_ready, -⟩ := hardResetKeyboard_released ready settled
  obtain ⟨released, created_ready⟩ := keyboardCreate_released reset_released reset_ready
  unfold rebuildKeyboardGrab
  dsimp only
  cases created_eq : frontend.hardResetKeyboard.keyboardCreate with
  | mk created after =>
      rw [created_eq] at released created_ready
      cases created with
      | none => exact ⟨released, created_ready.of_released rfl rfl released⟩
      | some keyboard =>
          have present : after.vk.present = true := created_ready.present
          have duplicates : after.world.duplicatesKeymap = true := created_ready.duplicates
          have expecting : (after.setKeyboard (some keyboard)).vkExpectKeymap.AllReleased := by
            intro key
            simpa [vkExpectKeymap, vkSetState, present, owes] using released key
          cases frontend.keyboard.isSome with
          | true =>
              refine onKeymap_released expecting ?_ ?_ ?_ loaded <;>
                simp [vkExpectKeymap, vkSetState, present, duplicates]
          | false =>
              refine onKeymap_released (expecting.of_kept (KeysKept.updateKeyboard _)) ?_ ?_ ?_
                loaded <;>
                simp [vkExpectKeymap, vkSetState, present, duplicates]

end Frontend

/-! ## Runs -/

/-- What reaches the router, and what changes around it between two events. -/
inductive RouterEvent
  | press (event : KeyEvent)
  | release (event : KeyEvent)
  | hardReset
  /-- A new grab is requested, and its keymap arrives. -/
  | regrab (loaded : Option Xkb)
  /-- The composition or the candidate list changes. -/
  | contextCalls (calls : List ContextCall)
  /-- The modifiers, the repeat or the startup guard of the keyboard change. -/
  | changeKeyboard (change : Keyboard → Keyboard)
  | changeInstance (inst : Instance)
  | reloadShortcuts (shortcuts : ShortcutConfig)
  | dispatched
  | clock (now : Nat)

namespace Frontend

/-- One event of the router. -/
def routerStep (engine : Engine) (frontend : Frontend) : RouterEvent → Frontend
  | .press event => frontend.processPress engine event
  | .release event => frontend.processRelease engine event
  | .hardReset => frontend.hardResetKeyboard
  | .regrab loaded => frontend.rebuildKeyboardGrab.2.onKeymap loaded
  | .contextCalls calls => calls.foldl contextCall frontend
  | .changeKeyboard change => frontend.updateKeyboard change
  | .changeInstance inst => { frontend with inst }
  | .reloadShortcuts shortcuts => { frontend with shortcuts }
  | .dispatched => { frontend with dispatchEpoch := frontend.dispatchEpoch + 1 }
  | .clock now => { frontend with world := { frontend.world with now } }

/-- The event leaves no key stuck. -/
def KeyKept (engine : Engine) (frontend : Frontend) : RouterEvent → Prop
  | .press event => frontend.PressKept engine event
  | .release event => frontend.ReleaseKept engine event
  | _ => True

theorem routerReady_of_release {frontend : Frontend} {key : Nat} (ready : frontend.RouterReady)
    {after : Frontend} (kept : KeysKept (some key) frontend after)
    (unrouted : frontend.keyboard = none → after = frontend) : after.RouterReady where
  present := by rw [kept.vk, ready.present]
  ready := by rw [kept.vk, ready.ready]
  duplicates := by rw [kept.world, ready.duplicates]
  idle gone := by
    have gone_before : frontend.keyboard = none := by
      rw [← Option.not_isSome_iff_eq_none, ← kept.keyboard, gone]
      simp
    rw [unrouted gone_before]
    exact ready.idle gone_before

theorem processPress_unrouted (engine : Engine) {frontend : Frontend}
    (gone : frontend.keyboard = none) (event : KeyEvent) :
    frontend.processPress engine event = frontend := by
  simp [processPress, gone]

theorem processRelease_unrouted (engine : Engine) {frontend : Frontend}
    (gone : frontend.keyboard = none) (event : KeyEvent) :
    frontend.processRelease engine event = frontend := by
  simp [processRelease, gone]

/-- One event of the router settles every key exactly when it leaves none stuck. -/
theorem routerStep_settled (engine : Engine) {frontend : Frontend} (ready : frontend.RouterReady)
    (settled : frontend.Settled) (event : RouterEvent) :
    ((frontend.routerStep engine event).NoKeyStuck ↔ frontend.KeyKept engine event) ∧
      (frontend.routerStep engine event).OwesHeld ∧
      (frontend.routerStep engine event).RouterReady := by
  have boundary {after : Frontend} (after_settled : after.Settled) (after_ready : after.RouterReady) :
      (after.NoKeyStuck ↔ True) ∧ after.OwesHeld ∧ after.RouterReady := by
    obtain ⟨not_stuck, owes_held⟩ := (settled_iff after).mp after_settled
    exact ⟨iff_true_intro not_stuck, owes_held, after_ready⟩
  have around {after : Frontend} (kept : KeysKept none frontend after) :=
    boundary (kept.settled settled) (ready.of_kept kept)
  cases event with
  | press event =>
      obtain ⟨not_stuck_iff, owes_held⟩ := processPress_settled engine ready.ready settled event
      exact ⟨not_stuck_iff, owes_held, routerReady_of_release ready
        (processPress_kept engine ready.ready event) fun gone =>
          processPress_unrouted engine gone event⟩
  | release event =>
      obtain ⟨not_stuck_iff, owes_held⟩ := processRelease_settled engine ready.ready settled event
      exact ⟨not_stuck_iff, owes_held, routerReady_of_release ready
        (processRelease_kept engine ready.ready event) fun gone =>
          processRelease_unrouted engine gone event⟩
  | hardReset =>
      obtain ⟨released, after_ready, -⟩ := hardResetKeyboard_released ready settled
      exact boundary released.settled after_ready
  | regrab loaded =>
      obtain ⟨released, after_ready⟩ := regrabbed_released ready settled loaded
      exact boundary released.settled after_ready
  | contextCalls calls => exact around (KeysKept.of_textFrame (TextFrame.contextCalls frontend calls))
  | changeKeyboard change => exact around (KeysKept.updateKeyboard change)
  | changeInstance inst => exact around ⟨rfl, rfl, rfl, fun _ _ => rfl, fun _ _ => rfl⟩
  | reloadShortcuts shortcuts => exact around ⟨rfl, rfl, rfl, fun _ _ => rfl, fun _ _ => rfl⟩
  | dispatched => exact around ⟨rfl, rfl, rfl, fun _ _ => rfl, fun _ _ => rfl⟩
  | clock now =>
      exact boundary settled ⟨ready.present, ready.ready, ready.duplicates, ready.idle⟩

/-- In a run of the router with a ready virtual keyboard no key is ever stuck if and only if no
press of an untracked key is forwarded, no press of a held basic-text key is latched for something
else, and no release of a forwarded key is reserved for the candidate list. -/
theorem noKeyStuck_iff_kept (engine : Engine) {start : Frontend} (ready : start.RouterReady)
    (settled : start.Settled) (events : List RouterEvent) :
    Machine.Always (routerStep engine) NoKeyStuck start events ↔
      Machine.EachStep (routerStep engine) (KeyKept engine) start events := by
  refine Machine.always_iff_eachStep (fun state => state.RouterReady ∧ state.OwesHeld) ?_ ?_
    ⟨ready, ?_⟩ ?_
  · rintro state event ⟨state_ready, owes_held⟩ not_stuck
    exact (routerStep_settled engine state_ready
      ((settled_iff state).mpr ⟨not_stuck, owes_held⟩) event).1
  · rintro state event ⟨state_ready, owes_held⟩ not_stuck -
    obtain ⟨-, after_owes, after_ready⟩ := routerStep_settled engine state_ready
      ((settled_iff state).mpr ⟨not_stuck, owes_held⟩) event
    exact ⟨after_ready, after_owes⟩
  · exact ((settled_iff start).mp settled).2
  · exact ((settled_iff start).mp settled).1

theorem attended_settled (inst : Instance) (shortcuts : ShortcutConfig) (world : World) :
    (attended inst shortcuts world).Settled := by
  intro key
  simp [attended, zeroed, heldInApp, owes, KeyTracking.getState, KeyTracking.initial,
    KeyTrackState.owed]

theorem attended_routerReady (inst : Instance) (shortcuts : ShortcutConfig) {world : World}
    (duplicates : world.duplicatesKeymap = true) :
    (attended inst shortcuts world).RouterReady where
  present := rfl
  ready := rfl
  duplicates := duplicates
  idle gone := by simp [attended] at gone

theorem noKeyStuck_iff_kept_attended :
    Machine.Always (routerStep fun _ => { handled := false, calls := [], active := none })
        NoKeyStuck
        (attended ⟨some "rime", none, false, false⟩ ShortcutConfig.defaults (World.obliging 1000))
        [.press ⟨true, 103, Keysym.up, 0, 0, 1000⟩, .hardReset] ↔
      Machine.EachStep (routerStep fun _ => { handled := false, calls := [], active := none })
        (KeyKept fun _ => { handled := false, calls := [], active := none })
        (attended ⟨some "rime", none, false, false⟩ ShortcutConfig.defaults (World.obliging 1000))
        [.press ⟨true, 103, Keysym.up, 0, 0, 1000⟩, .hardReset] :=
  noKeyStuck_iff_kept _ (attended_routerReady _ _ rfl) (attended_settled _ _ _) _

/-- The candidate list opens between the press and the release of the Up key, which the engine
declines both times. -/
theorem up_key_stuck :
    ¬Machine.Always (routerStep fun _ => { handled := false, calls := [], active := some "rime" })
      NoKeyStuck
      (attended ⟨some "rime", none, false, false⟩ ShortcutConfig.defaults (World.obliging 1000))
      [.press ⟨true, 103, Keysym.up, 0, 0, 1000⟩,
        .contextCalls [.setComposition [some [110]] 1 3],
        .release ⟨false, 103, Keysym.up, 0, 0, 1100⟩] := by
  intro always
  have stuck := always.final 103
  revert stuck
  decide +kernel

end Frontend

end Typio
