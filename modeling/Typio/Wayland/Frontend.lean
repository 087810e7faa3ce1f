import Mathlib.Tactic.Simps.Basic
import Typio.Wayland.KeyPolicy
import Typio.Wayland.LifecycleModel

/-!
# The frontend

The state of the Wayland frontend, the requests and calls it makes, and what its surroundings
answer.  Everything the frontend sends is recorded in `trace`, newest first, so that properties
of the wire are properties of the state.
-/

namespace Typio

/-- A C string: its bytes, without the terminator. -/
abbrev Text := List UInt8

/-- A call on the text UI backend. -/
inductive PopupCall
  | update
  | hide
  | showStatus
  | hideStatus
  deriving DecidableEq

/-- What the frontend sends or calls, and the event boundaries which number or reset it. -/
inductive Effect
  /-- A `zwp_input_method_v2` object is created. -/
  | imCreate
  | imDestroy
  /-- An `activate` event is received. -/
  | imActivate
  /-- A `done` event is received. -/
  | imDone
  | setPreedit (text : Text) (cursorBegin cursorEnd : Int)
  | commitString (text : Text)
  | commit (serial : Nat)
  /-- A `zwp_virtual_keyboard_v1` object is created. -/
  | vkCreate
  | vkDestroy
  | vkKeymap
  | vkKey (time key : Nat) (pressed : Bool)
  | vkModifiers (depressed latched locked group : UInt32)
  /-- `active_key_generation` takes a new value. -/
  | keyGeneration (generation : Nat)
  | grabKeyboard
  | releaseGrab
  /-- A key event is handed to the router. -/
  | routed (event : KeyEvent)
  /-- A key event is delivered to the active engine. -/
  | engineKey (event : KeyEvent) (isRepeat : Bool)
  | voiceStart
  | voiceStop
  | popup (call : PopupCall)
  /-- `typio_wl_lifecycle_set_phase`. -/
  | phase (previous next : Phase)
  /-- `typio_engine_manager_next`. -/
  | nextEngine
  deriving DecidableEq

/-! ## State -/

/-- `TypioWlVirtualKeyboardState`. -/
inductive VkState
  | absent
  | needsKeymap
  | ready
  | broken
  deriving DecidableEq

/-- The virtual keyboard fields of the frontend. -/
structure VirtualKeyboard where
  /-- `virtual_keyboard` is not null. -/
  present : Bool
  /-- `virtual_keyboard_state`. -/
  state : VkState
  /-- `virtual_keyboard_keymap_generation`. -/
  keymapGeneration : Nat
  /-- `virtual_keyboard_keymap_deadline_ms`. -/
  keymapDeadlineMs : Nat

/-- The compiled keymap of a grab; its state is consulted through the events. -/
structure Xkb where
  /-- `xkb_keymap_key_repeats`. -/
  keyRepeats : Nat → Bool

/-- `TypioArbiterState`. -/
inductive ArbiterState
  | idle
  | buffering
  deriving DecidableEq

/-- `TypioKeyArbiter`. -/
structure KeyArbiter where
  state : ArbiterState
  buffer : List KeyEvent
  deriving DecidableEq

/-- `TypioWlKeyboard`. -/
structure Keyboard where
  /-- `grab` is not null. -/
  grab : Bool
  /-- `xkb_keymap` and `xkb_state`, which are set together. -/
  xkb : Option Xkb
  physicalModifiers : Modifiers
  modsDepressed : UInt32
  modsLatched : UInt32
  modsLocked : UInt32
  modsGroup : UInt32
  sawBlockingModifier : Bool
  repeatRate : Int
  /-- `repeat_timer_fd` is open. -/
  repeatTimer : Bool
  repeatKey : Nat
  repeatTime : Nat
  repeating : Bool
  suppressStaleKeys : Bool
  startupSuppressedCount : Nat
  createdAtEpoch : Nat
  arbiter : KeyArbiter

/-- The fields of `TypioInputContext` which the frontend reads. -/
structure InputContext where
  focused : Bool
  /-- `preedit_segments`; a segment may carry no text. -/
  segments : List (Option Text)
  /-- `preedit.cursor_pos`. -/
  cursorPos : Int
  /-- `candidates.count`. -/
  candidateCount : Nat
  surroundingText : Option Text
  surroundingCursor : Int
  surroundingAnchor : Int

/-- `TypioWlSession::pending`. -/
structure PendingState where
  surroundingText : Option Text
  cursor : Nat
  anchor : Nat
  contentHint : UInt32
  contentPurpose : UInt32
  textChangeCause : UInt32
  active : Bool

/-- `TypioWlSession::current`. -/
structure CurrentState where
  surroundingText : Option Text
  cursor : Nat
  anchor : Nat
  contentHint : UInt32
  contentPurpose : UInt32

/-- `TypioWlSession`. -/
structure Session where
  ctx : InputContext
  pending : PendingState
  current : CurrentState
  lastPreeditText : Option Text
  lastPreeditCursor : Int

/-- What the frontend reads from `TypioInstance`. -/
structure Instance where
  /-- The name of the active keyboard engine. -/
  activeEngine : Option String
  /-- `engines.basic.printable_key_mode`. -/
  printableKeyMode : Option String
  /-- `engines.basic.compose`. -/
  compose : Bool
  /-- `typio_voice_session_is_available`. -/
  voiceAvailable : Bool

/-- What the system answers to the calls a handler makes. -/
structure World where
  /-- `typio_wl_monotonic_ms`. -/
  now : Nat
  /-- An input context can be created. -/
  createsContext : Bool
  /-- Memory for a keyboard can be allocated. -/
  allocatesKeyboard : Bool
  /-- An XKB context and a keyboard grab can be created. -/
  grabsKeyboard : Bool
  /-- A timer can be created. -/
  createsTimer : Bool
  /-- A keymap descriptor can be duplicated. -/
  duplicatesKeymap : Bool
  /-- `typio_wl_candidate_panel_present_retry_pending`. -/
  presentRetryPending : Bool
  /-- The active engine after the focused application's engine has been restored, if it has. -/
  restoredEngine : Option (Option String)

/-- `TypioWlFrontend`. -/
structure Frontend where
  inst : Instance
  /-- `display` is not null. -/
  display : Bool
  /-- `input_method` is not null. -/
  inputMethod : Bool
  vk : VirtualKeyboard
  tracking : KeyTracking
  keyboard : Option Keyboard
  session : Option Session
  /-- A 32-bit counter. -/
  imSerial : Nat
  dispatchEpoch : Nat
  running : Bool
  lifecyclePhase : Phase
  pendingReactivation : Bool
  reconcileDivergenceSinceMs : Nat
  popupUpdatePending : Bool
  carriedVkModifiers : Bool
  guardRejectPressStreak : Nat
  guardRejectPressWindowStartMs : Nat
  shortcuts : ShortcutConfig
  world : World
  /-- How often an engine has been called. -/
  engineCalls : Nat
  trace : List Effect

/-! ## Engines -/

/-- A call an engine makes on the input context it is given. -/
inductive ContextCall
  /-- `typio_input_context_commit`. -/
  | commit (text : Text)
  /-- `typio_input_context_set_composition`. -/
  | setComposition (segments : List (Option Text)) (cursorPos : Int) (candidateCount : Nat)
  /-- `typio_input_context_clear`. -/
  | clear

/-- What one call of an engine does. -/
structure EngineAnswer where
  /-- The result of a key event is not `TYPIO_KEY_NOT_HANDLED`. -/
  handled : Bool
  /-- The calls made on the context meanwhile, in order. -/
  calls : List ContextCall
  /-- The active engine after `typio_engine_manager_next`. -/
  active : Option String

/-- The answers of the engines, by the number of calls made before. -/
abbrev Engine := Nat → EngineAnswer

namespace Frontend

/-- Record an effect. -/
@[simps] def log (frontend : Frontend) (effect : Effect) : Frontend :=
  { frontend with trace := effect :: frontend.trace }

@[simps] def updateKeyboard (frontend : Frontend) (update : Keyboard → Keyboard) : Frontend :=
  { frontend with keyboard := frontend.keyboard.map update }

@[simps] def setKeyboard (frontend : Frontend) (keyboard : Option Keyboard) : Frontend :=
  { frontend with keyboard }

@[simps] def updateSession (frontend : Frontend) (update : Session → Session) : Frontend :=
  { frontend with session := frontend.session.map update }

@[simps] def setSession (frontend : Frontend) (session : Option Session) : Frontend :=
  { frontend with session }

@[simps] def updateTracking (frontend : Frontend) (update : KeyTracking → KeyTracking) : Frontend :=
  { frontend with tracking := update frontend.tracking }

@[simps] def updateVk (frontend : Frontend) (update : VirtualKeyboard → VirtualKeyboard) :
    Frontend :=
  { frontend with vk := update frontend.vk }

/-- `set_pending_reactivation`. -/
@[simps] def setPendingReactivation (frontend : Frontend) (pending : Bool) : Frontend :=
  { frontend with pendingReactivation := pending }

@[simps] def setPopupUpdatePending (frontend : Frontend) (pending : Bool) : Frontend :=
  { frontend with popupUpdatePending := pending }

@[simps] def setCarriedVkModifiers (frontend : Frontend) (carried : Bool) : Frontend :=
  { frontend with carriedVkModifiers := carried }

@[simps] def setActiveEngine (frontend : Frontend) (engine : Option String) : Frontend :=
  { frontend with inst := { frontend.inst with activeEngine := engine } }

/-- `key_set_state`. -/
@[simps] def setKeyState (frontend : Frontend) (key : Nat) (state : KeyTrackState) : Frontend :=
  { frontend with tracking := frontend.tracking.setState key state }

/-- `key_clear_tracking`. -/
@[simps] def clearKeyTracking (frontend : Frontend) (key : Nat) : Frontend :=
  { frontend with tracking := frontend.tracking.clearTracking key }

/-- `session_is_focused`. -/
def sessionIsFocused (frontend : Frontend) : Bool :=
  match frontend.session with
  | some session => session.ctx.focused
  | none => false

/-- The increment of `active_key_generation`. -/
def bumpKeyGeneration (frontend : Frontend) : Frontend :=
  let generation := KeyTracking.nextGeneration frontend.tracking.activeKeyGeneration
  (frontend.updateTracking fun tracking => { tracking with activeKeyGeneration := generation })
    |>.log (.keyGeneration generation)

/-- `typio_wl_frontend_stop`. -/
@[simps] def stop (frontend : Frontend) : Frontend := { frontend with running := false }

/-- `typio_wl_keyboard_release_grab` on the frontend's keyboard. -/
def releaseGrab (frontend : Frontend) : Frontend :=
  match frontend.keyboard with
  | none => frontend
  | some keyboard =>
      if keyboard.grab then
        (frontend.log .releaseGrab).updateKeyboard fun keyboard => { keyboard with grab := false }
      else frontend

/-- The effects recorded from one state to a later one, newest first. -/
def sentSince (before after : Frontend) : List Effect :=
  after.trace.take (after.trace.length - before.trace.length)

theorem sentSince_eq {before after : Frontend} {effects : List Effect}
    (trace_eq : after.trace = effects ++ before.trace) : before.sentSince after = effects := by
  simp [sentSince, trace_eq]

end Frontend

end Typio
