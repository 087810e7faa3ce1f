import Typio.Wayland.KeyRoute

/-!
# The keyboard grab

Creation and destruction of the grab, the repeat timer, and the handing of a key event to the
router, which starts or stops the timer.
-/

namespace Typio

/-- A keyboard as `typio_wl_keyboard_create` leaves it. -/
def Keyboard.fresh (createdAtEpoch : Nat) (repeatTimer : Bool) : Keyboard where
  grab := true
  xkb := none
  physicalModifiers := 0
  modsDepressed := 0
  modsLatched := 0
  modsLocked := 0
  modsGroup := 0
  sawBlockingModifier := false
  repeatRate := 0
  repeatTimer := repeatTimer
  repeatKey := 0
  repeatTime := 0
  repeating := false
  suppressStaleKeys := true
  startupSuppressedCount := 0
  createdAtEpoch := createdAtEpoch
  arbiter := { state := .idle, buffer := [] }

namespace Frontend

/-! ## Grab -/

/-- `guard_reset`. -/
@[simps] def guardReset (frontend : Frontend) : Frontend :=
  { frontend with guardRejectPressStreak := 0, guardRejectPressWindowStartMs := 0 }

/-- `tracking_reset`. -/
def trackingReset (frontend : Frontend) : Frontend :=
  (frontend.updateTracking KeyTracking.reset).guardReset

/-- `active_generation_owned_keys` is cleared. -/
def disownGeneration (frontend : Frontend) : Frontend :=
  frontend.updateTracking fun tracking => { tracking with activeGenerationOwnedKeys := false }

/-- `typio_wl_keyboard_create`. -/
def keyboardCreate (frontend : Frontend) : Option Keyboard × Frontend :=
  if frontend.inputMethod = false ∨ frontend.world.allocatesKeyboard = false then
    (none, frontend)
  else
    let frontend := frontend.bumpKeyGeneration
    let frontend := frontend.disownGeneration
    let frontend := frontend.trackingReset
    if frontend.world.grabsKeyboard then
      (some (Keyboard.fresh frontend.dispatchEpoch frontend.world.createsTimer),
        frontend.log .grabKeyboard)
    else (none, frontend)

/-- `typio_wl_keyboard_destroy` on the frontend's keyboard, which every caller then forgets. -/
def keyboardDestroy (frontend : Frontend) : Frontend :=
  match frontend.keyboard with
  | none => frontend
  | some _ =>
      let frontend := frontend.vkReleaseForwardedKeys
      let frontend := frontend.releaseGrab
      frontend.trackingReset.setKeyboard none

/-! ## Repeat -/

/-- `typio_wl_keyboard_repeat_maybe_start`. -/
def repeatMaybeStart (frontend : Frontend) (key time : Nat) (modifiers : Modifiers) : Frontend :=
  frontend.updateKeyboard fun keyboard =>
    if keyboard.repeatTimer && decide (0 < keyboard.repeatRate) &&
        keyboardRepeatShouldRun modifiers then
      { keyboard with repeatKey := key, repeatTime := time, repeating := true }
    else keyboard

/-- `typio_wl_keyboard_repeat_stop`. -/
def repeatStop (frontend : Frontend) : Frontend :=
  frontend.updateKeyboard fun keyboard => { keyboard with repeating := false }

/-- The end of `typio_wl_keyboard_process_key_press`: the repeat timer may be started. -/
def repeatAfterPress (frontend : Frontend) (event : KeyEvent) : Frontend :=
  match frontend.keyboard with
  | none => frontend
  | some keyboard =>
      if decide (0 < keyboard.repeatRate) &&
          repeatShouldRunForState (frontend.tracking.getState event.key) &&
          keyboard.xkb.any (·.keyRepeats event.key) then
        frontend.repeatMaybeStart event.key event.time event.modifiers
      else frontend

/-- The start of `typio_wl_keyboard_process_key_release`: the repeat of this key stops. -/
def repeatBeforeRelease (frontend : Frontend) (key : Nat) : Frontend :=
  if frontend.keyboard.any fun keyboard => keyboard.repeating && keyboard.repeatKey == key then
    frontend.repeatStop
  else frontend

section Engine

variable (engine : Engine)

/-- `typio_wl_keyboard_process_key_press`. -/
def processKeyPress (frontend : Frontend) (event : KeyEvent) : Frontend :=
  ((frontend.log (.routed event)).processPress engine event).repeatAfterPress event

/-- `typio_wl_keyboard_process_key_release`. -/
def processKeyRelease (frontend : Frontend) (event : KeyEvent) : Frontend :=
  ((frontend.log (.routed event)).repeatBeforeRelease event.key).processRelease engine event

/-- The key event of a repeat, as `typio_wl_keyboard_dispatch_repeat` builds it. -/
def repeatEvent (keyboard : Keyboard) (keysym : Keysym) (unicode : UInt32)
    (xkbModifiers : Modifiers) : KeyEvent where
  isPress := true
  key := keyboard.repeatKey
  keysym := keysym
  modifiers := keyboard.physicalModifiers |||
    (xkbModifiers &&& (Modifiers.capslock ||| Modifiers.numlock))
  unicode := unicode
  time := keyboard.repeatTime

/-- The last part of `typio_wl_keyboard_dispatch_repeat`: the engine is asked. -/
def offerRepeat (frontend : Frontend) (event : KeyEvent) : Frontend :=
  let handled := (frontend.processKey engine event true).1
  let frontend := (frontend.processKey engine event true).2
  if handled then frontend
  else if frontend.candidateGuardShouldConsume event.keysym then frontend
  else (frontend.vkForwardKey event.time event.key true).setKeyState event.key .forwarded

/-- `typio_wl_keyboard_dispatch_repeat` once the repeat has been read and may be delivered. -/
def deliverRepeat (frontend : Frontend) (keyboard : Keyboard) (event : KeyEvent) : Frontend :=
  match frontend.tracking.getState event.key with
  | .appShortcut =>
      if keyboard.physicalModifiers.hasBlocking then
        frontend.vkForwardKey event.time event.key true
      else frontend.repeatStop
  | .forwarded | .basicPassthrough => frontend.vkForwardKey event.time event.key true
  | state =>
      if repeatShouldRunForState state then frontend.offerRepeat engine event
      else frontend.repeatStop

/-- `typio_wl_keyboard_dispatch_repeat`; `expired` tells whether the timer could be read. -/
def dispatchRepeat (frontend : Frontend) (expired : Bool) (keysym : Keysym) (unicode : UInt32)
    (xkbModifiers : Modifiers) : Frontend :=
  match frontend.keyboard with
  | none => frontend
  | some keyboard =>
      if keyboard.repeating = false ∨ keyboard.repeatTimer = false then frontend
      else if frontend.lifecyclePhase.allowsKeyEvents = false then frontend.repeatStop
      else if expired = false then frontend
      else if keyboard.xkb.isNone ∨ frontend.session.isNone then frontend.repeatStop
      else if frontend.sessionIsFocused = false then frontend.repeatStop
      else
        frontend.deliverRepeat engine keyboard
          (repeatEvent keyboard keysym unicode xkbModifiers)

end Engine

end Frontend

end Typio
