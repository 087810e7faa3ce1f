import Typio.Wayland.Keyboard

/-!
# The key arbiter

Once all modifiers of the engine-switch chord are held, key events are buffered.  The buffer is
consumed when the chord is released cleanly, and replayed into the router when anything else
happens first.
-/

namespace Typio

/-- `TYPIO_ARBITER_MAX_BUFFERED`. -/
def maxBuffered : Nat := 8

namespace KeyArbiter

/-- `typio_wl_key_arbiter_init` and `typio_wl_key_arbiter_reset`. -/
def init : KeyArbiter where
  state := .idle
  buffer := []

/-- `arbiter_buffer_push`; an event which finds the buffer full is dropped. -/
def push (arbiter : KeyArbiter) (event : KeyEvent) : KeyArbiter :=
  if maxBuffered ≤ arbiter.buffer.length then arbiter
  else { arbiter with buffer := arbiter.buffer ++ [event] }

end KeyArbiter

/-- The modifiers which are not part of the chord. -/
def ShortcutBinding.forbidden (binding : ShortcutBinding) : Modifiers :=
  Modifiers.chordable &&& ~~~binding.modifiers

/-- `arbiter_should_start_buffering`. -/
def arbiterShouldStartBuffering (binding : ShortcutBinding) (keysym : Keysym)
    (physicalModifiers : Modifiers) : Bool :=
  isSwitchModifier binding keysym &&
    physicalModifiers &&& binding.modifiers == binding.modifiers &&
    physicalModifiers &&& binding.forbidden == 0

/-- `arbiter_chord_complete`. -/
def arbiterChordComplete (binding : ShortcutBinding) (physicalModifiers : Modifiers) : Bool :=
  physicalModifiers &&& binding.modifiers == 0

/-- `arbiter_should_cancel`. -/
def arbiterShouldCancel (binding : ShortcutBinding) (keysym : Keysym)
    (physicalModifiers : Modifiers) (isPress : Bool) : Bool :=
  isPress && !isSwitchModifier binding keysym ||
    physicalModifiers &&& binding.forbidden != 0

namespace Frontend

def updateArbiter (frontend : Frontend) (update : KeyArbiter → KeyArbiter) : Frontend :=
  frontend.updateKeyboard fun keyboard => { keyboard with arbiter := update keyboard.arbiter }

/-- `arbiter_release_orphaned_keys`. -/
def arbiterReleaseOrphanedKeys (frontend : Frontend) (buffer : List KeyEvent) : Frontend :=
  buffer.foldl (fun frontend event =>
    if event.isPress = true ∨ frontend.tracking.getState event.key ≠ .forwarded then frontend
    else
      (frontend.vkForwardKey event.time event.key false).clearKeyTracking event.key) frontend

section Engine

variable (engine : Engine)

/-- A key event is handed to `typio_wl_keyboard_process_key_press` or its counterpart. -/
def processKeyEvent (frontend : Frontend) (event : KeyEvent) : Frontend :=
  if event.isPress then frontend.processKeyPress engine event
  else frontend.processKeyRelease engine event

/-- `arbiter_replay`. -/
def arbiterReplay (frontend : Frontend) (buffer : List KeyEvent) : Frontend :=
  (buffer.foldl (processKeyEvent engine) frontend).updateArbiter fun _ => KeyArbiter.init

/-- `arbiter_consume`. -/
def arbiterConsume (frontend : Frontend) (buffer : List KeyEvent) : Frontend :=
  ((frontend.arbiterReleaseOrphanedKeys buffer).nextEngine engine).updateArbiter fun _ =>
    KeyArbiter.init

/-- `typio_wl_key_arbiter_press`. -/
def arbiterPress (frontend : Frontend) (event : KeyEvent) : Frontend :=
  match frontend.keyboard with
  | none => frontend
  | some keyboard =>
      let physical := keyboard.physicalModifiers
      let binding := frontend.shortcuts.switchEngine
      match keyboard.arbiter.state with
      | .idle =>
          if arbiterShouldStartBuffering binding event.keysym physical then
            frontend.updateArbiter fun arbiter => { arbiter with state := .buffering }.push event
          else frontend.processKeyPress engine event
      | .buffering =>
          if arbiterShouldCancel binding event.keysym physical true ||
              decide (maxBuffered - 1 ≤ keyboard.arbiter.buffer.length) then
            (frontend.arbiterReplay engine keyboard.arbiter.buffer).processKeyPress engine event
          else frontend.updateArbiter (·.push event)

/-- `typio_wl_key_arbiter_release`. -/
def arbiterRelease (frontend : Frontend) (event : KeyEvent) : Frontend :=
  match frontend.keyboard with
  | none => frontend
  | some keyboard =>
      let physical := keyboard.physicalModifiers
      let binding := frontend.shortcuts.switchEngine
      match keyboard.arbiter.state with
      | .idle => frontend.processKeyRelease engine event
      | .buffering =>
          if arbiterShouldCancel binding event.keysym physical false then
            (frontend.arbiterReplay engine keyboard.arbiter.buffer).processKeyRelease engine event
          else if arbiterChordComplete binding physical then
            (frontend.updateArbiter (·.push event)).arbiterConsume engine
              (keyboard.arbiter.push event).buffer
          else frontend.updateArbiter (·.push event)

end Engine

end Frontend

end Typio
