import Typio.Wayland.KeyTracking

/-!
# Key policies

The dependency-free decisions of the key path: modifier masks, shortcut bindings, and the guards
for candidates, startup, repeat and activation boundaries.
-/

namespace Typio

/-! ## Modifiers and key symbols -/

/-- A `TYPIO_MOD_*` bit mask. -/
abbrev Modifiers := UInt32

/-- An XKB key symbol. -/
abbrev Keysym := UInt32

namespace Modifiers

def shift : Modifiers := 1
def ctrl : Modifiers := 2
def alt : Modifiers := 4
def super : Modifiers := 8
def capslock : Modifiers := 16
def numlock : Modifiers := 32

/-- `TYPIO_MOD_CTRL | TYPIO_MOD_ALT | TYPIO_MOD_SUPER`. -/
def blocking : Modifiers := ctrl ||| alt ||| super

/-- `TYPIO_MOD_CTRL | TYPIO_MOD_SHIFT | TYPIO_MOD_ALT | TYPIO_MOD_SUPER`. -/
def chordable : Modifiers := ctrl ||| shift ||| alt ||| super

/-- Ctrl, Alt or Super is among the modifiers. -/
def hasBlocking (modifiers : Modifiers) : Bool := modifiers &&& blocking != 0

end Modifiers

namespace Keysym

def shiftL : Keysym := 0xffe1
def shiftR : Keysym := 0xffe2
def controlL : Keysym := 0xffe3
def controlR : Keysym := 0xffe4
def altL : Keysym := 0xffe9
def altR : Keysym := 0xffea
def superL : Keysym := 0xffeb
def superR : Keysym := 0xffec
def left : Keysym := 0xff51
def up : Keysym := 0xff52
def right : Keysym := 0xff53
def down : Keysym := 0xff54
def returnKey : Keysym := 0xff0d
def kpEnter : Keysym := 0xff8d
def escape : Keysym := 0xff1b

/-- The key symbols tested by `typio_key_event_is_modifier_only`. -/
def isModifierOnly (keysym : Keysym) : Bool :=
  keysym == shiftL || keysym == shiftR || keysym == controlL || keysym == controlR ||
    keysym == altL || keysym == altR || keysym == superL || keysym == superR

end Keysym

/-- A key event as the routing layer passes it on, `TypioArbiterEvent`. -/
structure KeyEvent where
  /-- `is_press`. -/
  isPress : Bool
  key : Nat
  keysym : Keysym
  modifiers : Modifiers
  unicode : UInt32
  time : Nat
  deriving DecidableEq

/-! ## Effective modifiers -/

/-- `modifier_bit_for_keysym`. -/
def modifierBitForKeysym (keysym : Keysym) : Modifiers :=
  if keysym = Keysym.shiftL ∨ keysym = Keysym.shiftR then Modifiers.shift
  else if keysym = Keysym.controlL ∨ keysym = Keysym.controlR then Modifiers.ctrl
  else if keysym = Keysym.altL ∨ keysym = Keysym.altR then Modifiers.alt
  else if keysym = Keysym.superL ∨ keysym = Keysym.superR then Modifiers.super
  else 0

/-- `modifiers_for_current_key`; without a modifier bit the mask is unchanged in both cases. -/
def modifiersForCurrentKey (modifiers : Modifiers) (keysym : Keysym) (pressed : Bool) :
    Modifiers :=
  if pressed then modifiers ||| modifierBitForKeysym keysym
  else modifiers &&& ~~~modifierBitForKeysym keysym

/-- `typio_wl_modifier_policy_effective_modifiers`. -/
def effectiveModifiers (physical xkb : Modifiers) (activeGenerationOwnedKeys : Bool)
    (keysym : Keysym) (pressed : Bool) : Modifiers :=
  let locks := xkb &&& (Modifiers.capslock ||| Modifiers.numlock)
  let modifiers := physical ||| locks
  let modifiers :=
    if activeGenerationOwnedKeys then modifiers else modifiers ||| (xkb &&& Modifiers.blocking)
  modifiersForCurrentKey modifiers keysym pressed

/-! ## Shortcut bindings -/

/-- `TypioShortcutBinding`; the key symbol 0 makes a chord of modifiers alone. -/
structure ShortcutBinding where
  modifiers : Modifiers
  keysym : Keysym

/-- `TypioShortcutConfig`. -/
structure ShortcutConfig where
  /-- `switch_engine`. -/
  switchEngine : ShortcutBinding
  /-- `emergency_exit`. -/
  emergencyExit : ShortcutBinding
  /-- `voice_ptt`. -/
  voicePtt : ShortcutBinding

/-- `typio_shortcut_config_defaults`: Ctrl+Shift, Ctrl+Shift+Escape and Super+v. -/
def ShortcutConfig.defaults : ShortcutConfig where
  switchEngine := ⟨Modifiers.ctrl ||| Modifiers.shift, 0⟩
  emergencyExit := ⟨Modifiers.ctrl ||| Modifiers.shift, Keysym.escape⟩
  voicePtt := ⟨Modifiers.super, 0x76⟩

/-- `TypioWlReservedAction`. -/
inductive ReservedAction
  | none
  | emergencyExit
  | voicePtt
  deriving DecidableEq

/-- `typio_wl_key_route_binding_matches_press`. -/
def bindingMatchesPress (binding : ShortcutBinding) (keysym : Keysym) (modifiers : Modifiers) :
    Bool :=
  binding.keysym != 0 && keysym == binding.keysym &&
    modifiers &&& binding.modifiers == binding.modifiers

/-- `typio_wl_key_route_reserved_action`. -/
def reservedAction (shortcuts : ShortcutConfig) (keysym : Keysym) (modifiers : Modifiers) :
    ReservedAction :=
  if bindingMatchesPress shortcuts.emergencyExit keysym modifiers then .emergencyExit
  else if bindingMatchesPress shortcuts.voicePtt keysym modifiers then .voicePtt
  else .none

/-- `key_route_is_app_shortcut`. -/
def isAppShortcut (keysym : Keysym) (modifiers : Modifiers) : Bool :=
  modifiers.hasBlocking && !keysym.isModifierOnly

/-! ## Modifier chords -/

/-- `keysym_is_modifier_for`. -/
def keysymIsModifierFor (required : Modifiers) (keysym : Keysym) : Bool :=
  (required &&& Modifiers.ctrl != 0 && (keysym == Keysym.controlL || keysym == Keysym.controlR)) ||
  (required &&& Modifiers.shift != 0 && (keysym == Keysym.shiftL || keysym == Keysym.shiftR)) ||
  (required &&& Modifiers.alt != 0 && (keysym == Keysym.altL || keysym == Keysym.altR)) ||
  (required &&& Modifiers.super != 0 && (keysym == Keysym.superL || keysym == Keysym.superR))

/-- `typio_wl_shortcut_chord_is_switch_modifier`. -/
def isSwitchModifier (binding : ShortcutBinding) (keysym : Keysym) : Bool :=
  keysymIsModifierFor binding.modifiers keysym

/-! ## Guards -/

/-- `typio_wl_candidate_guard_is_navigation_keysym`. -/
def isNavigationKeysym (keysym : Keysym) : Bool :=
  keysym == Keysym.up || keysym == Keysym.down || keysym == Keysym.left || keysym == Keysym.right

/-- `TYPIO_WL_STARTUP_GUARD_EPOCHS`. -/
def startupGuardEpochs : Nat := 2

/-- `typio_wl_startup_guard_is_in_guard_window`. -/
def isInGuardWindow (createdAtEpoch currentEpoch : Nat) : Bool :=
  createdAtEpoch ≤ currentEpoch && currentEpoch - createdAtEpoch ≤ startupGuardEpochs

/-- `typio_wl_startup_guard_classify_press` answers `TYPIO_WL_STARTUP_SUPPRESS_STALE_KEY`. -/
def startupSuppressesPress (createdAtEpoch currentEpoch : Nat) (suppressStaleKeys : Bool) :
    Bool :=
  suppressStaleKeys && isInGuardWindow createdAtEpoch currentEpoch

/-- `typio_wl_repeat_should_cancel_on_modifier_transition`. -/
def repeatShouldCancelOnModifierTransition (previous current : Modifiers) : Bool :=
  previous &&& Modifiers.blocking != current &&& Modifiers.blocking

/-- `typio_wl_repeat_should_run_for_state`. -/
def repeatShouldRunForState : KeyTrackState → Bool
  | .suppressedStartup | .releasedPending => false
  | _ => true

/-- `keyboard_repeat_should_run`. -/
def keyboardRepeatShouldRun (modifiers : Modifiers) : Bool := !modifiers.hasBlocking

/-- `typio_wl_boundary_bridge_should_forward_orphan_release_cleanup`. -/
def shouldForwardOrphanReleaseCleanup (keysym : Keysym) (modifiers : Modifiers)
    (sawBlockingModifier : Bool) : Bool :=
  keysym == Keysym.returnKey || keysym == Keysym.kpEnter || sawBlockingModifier ||
    modifiers.hasBlocking

end Typio
