import Typio.Wayland.KeyArbiter

/-!
# Events of the keyboard grab

The listeners of the grab: keymap, key, modifiers and repeat information, with the routing guard
in front of the arbiter.
-/

namespace Typio

/-- `GUARD_FAILSAFE_WINDOW_MS`. -/
def guardFailsafeWindowMs : Nat := 1500

/-- `GUARD_FAILSAFE_THRESHOLD`. -/
def guardFailsafeThreshold : Nat := 8

namespace Frontend

/-- `guard_reason` names a reason to reject the key event. -/
def guardRejects (frontend : Frontend) : Bool :=
  frontend.session.isNone || !frontend.lifecyclePhase.allowsKeyEvents ||
    !frontend.sessionIsFocused

/-- The window and the streak after one more rejected press. -/
def guardCountReject (frontend : Frontend) : Frontend :=
  if frontend.guardRejectPressWindowStartMs = 0 ∨
      guardFailsafeWindowMs < frontend.world.now - frontend.guardRejectPressWindowStartMs then
    { frontend with
      guardRejectPressWindowStartMs := frontend.world.now, guardRejectPressStreak := 1 }
  else { frontend with guardRejectPressStreak := frontend.guardRejectPressStreak + 1 }

/-- `guard_note_reject`. -/
def guardNoteReject (frontend : Frontend) (pressed : Bool) : Frontend :=
  if pressed = false then frontend
  else
    let frontend := frontend.guardCountReject
    if guardFailsafeThreshold ≤ frontend.guardRejectPressStreak ∧
        frontend.lifecyclePhase ≠ .activating then
      frontend.releaseGrab.stop
    else frontend

/-- `on_keymap`; `loaded` is the keymap, if it could be compiled. -/
def onKeymap (frontend : Frontend) (loaded : Option Xkb) : Frontend :=
  match frontend.keyboard with
  | none => frontend
  | some _ =>
      frontend.vkForwardKeymap.updateKeyboard fun keyboard =>
        { keyboard with xkb := loaded.or keyboard.xkb }

/-- `on_modifiers`; the effective modifiers before and after the update come from XKB. -/
def onModifiers (frontend : Frontend) (depressed latched locked group : UInt32)
    (previous current : Modifiers) : Frontend :=
  match frontend.keyboard with
  | none => frontend
  | some keyboard =>
      let previous := if keyboard.xkb.isSome then previous else 0
      let current := if keyboard.xkb.isSome then current else 0
      let frontend := frontend.updateKeyboard fun keyboard =>
        if keyboard.xkb.isSome then
          { keyboard with
            modsDepressed := depressed, modsLatched := latched, modsLocked := locked,
            modsGroup := group }
        else keyboard
      let frontend := frontend.updateKeyboard fun keyboard =>
        { keyboard with
          sawBlockingModifier := keyboard.sawBlockingModifier || current.hasBlocking,
          repeating := keyboard.repeating &&
            !repeatShouldCancelOnModifierTransition previous current }
      frontend.vkForwardModifiers depressed latched locked group

/-- `on_repeat_info`. -/
def onRepeatInfo (frontend : Frontend) (rate : Int) : Frontend :=
  frontend.updateKeyboard fun keyboard => { keyboard with repeatRate := rate }

section Engine

variable (engine : Engine)

/-- The end of `on_key`: the physical modifiers follow the key, and the arbiter takes it. -/
def dispatchKey (frontend : Frontend) (event : KeyEvent) : Frontend :=
  let frontend := frontend.guardReset
  let frontend := frontend.updateKeyboard fun keyboard =>
    { keyboard with physicalModifiers :=
        modifiersForCurrentKey keyboard.physicalModifiers event.keysym event.isPress }
  if event.isPress then frontend.arbiterPress engine event
  else frontend.arbiterRelease engine event

/-- `on_key`; key symbol, code point and effective modifiers come from XKB. -/
def onKey (frontend : Frontend) (time key : Nat) (pressed : Bool) (keysym : Keysym)
    (unicode : UInt32) (xkbModifiers : Modifiers) : Frontend :=
  match frontend.keyboard with
  | none => frontend
  | some keyboard =>
      if keyboard.xkb.isNone then frontend
      else
        let modifiers := effectiveModifiers keyboard.physicalModifiers xkbModifiers
          frontend.tracking.activeGenerationOwnedKeys keysym pressed
        if pressed = true ∧ reservedAction frontend.shortcuts keysym modifiers = .emergencyExit
        then frontend.releaseGrab.stop
        else if frontend.guardRejects then
          let frontend := frontend.guardNoteReject pressed
          if pressed then frontend else frontend.repeatBeforeRelease key
        else
          frontend.dispatchKey engine
            { isPress := pressed, key, keysym, modifiers, unicode, time }

end Engine

end Frontend

/-! ## What the arbiter does with an event -/

inductive ArbiterOutcome
  /-- The event is routed at once. -/
  | pass
  /-- Buffering starts with the event. -/
  | start
  /-- The event is buffered. -/
  | store
  /-- The buffer is replayed, and the event is routed after it. -/
  | replay
  /-- The event completes the chord, and the buffer is consumed. -/
  | consume
  deriving DecidableEq

/-- What the arbiter does with an event while the given modifiers are physically held. -/
def KeyArbiter.outcome (arbiter : KeyArbiter) (binding : ShortcutBinding) (physical : Modifiers)
    (event : KeyEvent) : ArbiterOutcome :=
  match arbiter.state with
  | .idle =>
      if event.isPress && arbiterShouldStartBuffering binding event.keysym physical then .start
      else .pass
  | .buffering =>
      if arbiterShouldCancel binding event.keysym physical event.isPress ||
          (event.isPress && decide (maxBuffered - 1 ≤ arbiter.buffer.length)) then .replay
      else if !event.isPress && arbiterChordComplete binding physical then .consume
      else .store

/-- The physical modifiers once `on_key` has seen the event. -/
def Keyboard.physicalAfter (keyboard : Keyboard) (event : KeyEvent) : Modifiers :=
  modifiersForCurrentKey keyboard.physicalModifiers event.keysym event.isPress

namespace Frontend

/-- What the arbiter of the frontend's keyboard does with an event. -/
def outcome (frontend : Frontend) (keyboard : Keyboard) (event : KeyEvent) : ArbiterOutcome :=
  keyboard.arbiter.outcome frontend.shortcuts.switchEngine (keyboard.physicalAfter event) event

/-- The frontend once `on_key` has seen the event. -/
def noteKey (frontend : Frontend) (event : KeyEvent) : Frontend :=
  frontend.guardReset.updateKeyboard fun keyboard =>
    { keyboard with physicalModifiers := keyboard.physicalAfter event }

section Engine

variable (engine : Engine)

/-- The handlers of the arbiter, by what they do with the event. -/
theorem dispatchKey_eq {frontend : Frontend} {keyboard : Keyboard}
    (keyboard_eq : frontend.keyboard = some keyboard) (event : KeyEvent) :
    frontend.dispatchKey engine event =
      match frontend.outcome keyboard event with
      | .pass => (frontend.noteKey event).processKeyEvent engine event
      | .start => (frontend.noteKey event).updateArbiter fun arbiter =>
          { arbiter with state := .buffering }.push event
      | .store => (frontend.noteKey event).updateArbiter (·.push event)
      | .replay => ((frontend.noteKey event).arbiterReplay engine keyboard.arbiter.buffer)
          |>.processKeyEvent engine event
      | .consume => ((frontend.noteKey event).updateArbiter (·.push event)).arbiterConsume engine
          (keyboard.arbiter.push event).buffer := by
  have noted : (frontend.noteKey event).keyboard =
      some { keyboard with physicalModifiers := keyboard.physicalAfter event } := by
    simp [noteKey, keyboard_eq]
  have dispatched : frontend.dispatchKey engine event =
      if event.isPress then (frontend.noteKey event).arbiterPress engine event
      else (frontend.noteKey event).arbiterRelease engine event := rfl
  rw [dispatched]
  unfold arbiterPress arbiterRelease
  simp only [noted, outcome, KeyArbiter.outcome]
  have shortcuts_eq : (frontend.noteKey event).shortcuts = frontend.shortcuts := rfl
  rw [shortcuts_eq]
  cases keyboard.arbiter.state with
  | idle =>
      cases pressed : event.isPress with
      | false => simp [processKeyEvent, pressed]
      | true =>
          simp only [processKeyEvent, pressed, Bool.true_and, if_true]
          split <;> rfl
  | buffering =>
      cases pressed : event.isPress with
      | true =>
          simp only [processKeyEvent, pressed, Bool.true_and, Bool.not_true, Bool.false_and,
            if_true]
          split <;> rfl
      | false =>
          simp only [processKeyEvent, pressed, Bool.false_and, Bool.or_false, Bool.not_false,
            Bool.true_and, Bool.false_eq_true, if_false]
          split
          · rfl
          · split <;> rfl

end Engine

end Frontend

end Typio
