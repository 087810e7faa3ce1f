import Typio.Wayland.TextUi
import Typio.Wayland.VkBridge

/-!
# Key routing

A press or a release is consumed, forwarded to the application, or offered to the engine, and the
tracker records which.  A press of a key whose route is latched is settled first; the remaining
presses pass the startup guard, the reserved shortcuts, the application shortcuts and the basic
engine's printable keys before they reach the active engine.
-/

namespace Typio

/-- `key_route_is_printable_text_unicode`. -/
def isPrintableTextUnicode (unicode : UInt32) : Bool := 0x20 ≤ unicode && unicode != 0x7f

/-- The suppression of stale keys ends once no suppressed key is held. -/
def Keyboard.endSuppression (keyboard : Keyboard) : Keyboard :=
  if keyboard.suppressStaleKeys && keyboard.startupSuppressedCount == 0 then
    { keyboard with suppressStaleKeys := false }
  else keyboard

namespace Frontend

/-- `key_route_should_forward_basic_text`. -/
def shouldForwardBasicText (frontend : Frontend) (modifiers : Modifiers) (unicode : UInt32) :
    Bool :=
  !modifiers.hasBlocking && isPrintableTextUnicode unicode &&
    frontend.inst.activeEngine == some "basic" &&
    frontend.inst.printableKeyMode.getD "forward" != "commit" && !frontend.inst.compose

section Engine

variable (engine : Engine)

/-- The last part of `typio_wl_key_route_process_press`: the engine is asked. -/
def offerPress (frontend : Frontend) (event : KeyEvent) : Frontend :=
  let handled := (frontend.processKey engine event false).1
  let frontend := (frontend.processKey engine event false).2
  if !handled && frontend.candidateGuardShouldConsume event.keysym then frontend
  else if !handled || event.keysym.isModifierOnly then
    (frontend.vkForwardKey event.time event.key true).setKeyState event.key .forwarded
  else frontend

/-- `typio_wl_key_route_process_press` after the startup guard.  The source tests the voice
binding once more, which `reservedAction` has just done. -/
def classifyPress (frontend : Frontend) (event : KeyEvent) : Frontend :=
  match reservedAction frontend.shortcuts event.keysym event.modifiers with
  | .emergencyExit => frontend.releaseGrab.stop
  | .voicePtt =>
      if frontend.inst.voiceAvailable then
        (frontend.log .voiceStart).setKeyState event.key .voicePtt
      else
        (frontend.setKeyState event.key .voicePttUnavail).log (.popup .showStatus)
  | .none =>
      if isAppShortcut event.keysym event.modifiers then
        (frontend.vkForwardKey event.time event.key true).setKeyState event.key .appShortcut
      else if frontend.shouldForwardBasicText event.modifiers event.unicode then
        (frontend.vkForwardKey event.time event.key true).setKeyState event.key
          .basicPassthrough
      else frontend.offerPress engine event

/-- `typio_wl_key_route_process_press` for a key whose route is not latched. -/
def routePress (frontend : Frontend) (keyboard : Keyboard) (event : KeyEvent) : Frontend :=
  let frontend := frontend.updateTracking (·.claimCurrentGeneration event.key)
  if startupSuppressesPress keyboard.createdAtEpoch frontend.dispatchEpoch
      keyboard.suppressStaleKeys then
    (frontend.setKeyState event.key .suppressedStartup).updateKeyboard fun keyboard =>
      { keyboard with startupSuppressedCount := keyboard.startupSuppressedCount + 1 }
  else
    (frontend.updateKeyboard Keyboard.endSuppression).classifyPress engine event

/-- `typio_wl_key_route_process_press`. -/
def processPress (frontend : Frontend) (event : KeyEvent) : Frontend :=
  match frontend.keyboard with
  | none => frontend
  | some keyboard =>
      match frontend.tracking.getState event.key with
      | .releasedPending | .suppressedStartup => frontend
      | .appShortcut =>
          if keyboard.physicalModifiers.hasBlocking then
            frontend.vkForwardKey event.time event.key true
          else frontend
      | .forwarded => frontend.vkForwardKey event.time event.key true
      | .idle | .basicPassthrough | .voicePtt | .voicePttUnavail =>
          frontend.routePress engine keyboard event

/-- `typio_wl_key_route_process_release` of an idle key. -/
def releaseIdle (frontend : Frontend) (keyboard : Keyboard) (event : KeyEvent) : Frontend :=
  if !frontend.tracking.ownedByActiveGeneration event.key then
    if !event.keysym.isModifierOnly &&
        (isInGuardWindow keyboard.createdAtEpoch frontend.dispatchEpoch ||
          shouldForwardOrphanReleaseCleanup event.keysym event.modifiers
            keyboard.sawBlockingModifier) then
      (frontend.vkForwardKey event.time event.key false).clearKeyTracking event.key
    else frontend.clearKeyTracking event.key
  else
    let frontend := frontend.updateKeyboard Keyboard.endSuppression
    (frontend.processKey engine event false).2.clearKeyTracking event.key

/-- `typio_wl_key_route_process_release` of a forwarded key. -/
def releaseForwarded (frontend : Frontend) (event : KeyEvent) : Frontend :=
  let frontend := frontend.clearKeyTracking event.key
  let handled := (frontend.processKey engine event false).1
  let frontend := (frontend.processKey engine event false).2
  if !handled && frontend.candidateGuardShouldConsume event.keysym then
    frontend.clearKeyTracking event.key
  else frontend.vkForwardKey event.time event.key false

/-- `typio_wl_key_route_process_release`. -/
def processRelease (frontend : Frontend) (event : KeyEvent) : Frontend :=
  match frontend.keyboard with
  | none => frontend
  | some keyboard =>
      match frontend.tracking.getState event.key with
      | .releasedPending => frontend.clearKeyTracking event.key
      | .suppressedStartup =>
          let frontend := frontend.clearKeyTracking event.key
          let frontend := frontend.updateKeyboard fun keyboard =>
            { keyboard with
              startupSuppressedCount := keyboard.startupSuppressedCount - 1 }.endSuppression
          frontend.vkForwardKey event.time event.key false
      | .appShortcut | .basicPassthrough =>
          (frontend.clearKeyTracking event.key).vkForwardKey event.time event.key false
      | .voicePtt => (frontend.log .voiceStop).clearKeyTracking event.key
      | .voicePttUnavail => (frontend.log (.popup .hideStatus)).clearKeyTracking event.key
      | .forwarded => frontend.releaseForwarded engine event
      | .idle => frontend.releaseIdle engine keyboard event

end Engine

end Frontend

end Typio
